import WebhookRelay.Proofs.KeyDesk

/-!
# What the steps of look-ups tell

What a step leaves as it is, where each look-up after it comes from, and in which ways a
look-up ends.  A set that was fetched stays for some time before another one is fetched
in its place: a look-up that has missed on a set has seen that it was old enough.
-/

set_option autoImplicit false

namespace WebhookRelay

/-- The time for which a fetched set is not replaced: it is neither expired nor old enough
to be fetched again for the sake of a key id that it lacks. -/
def KeyCacheConfig.spacing (config : KeyCacheConfig) : Nat :=
  min config.ttl.nanos config.minRefreshInterval.nanos

theorem KeySet.answer_known {keys : KeySet} {keyId : String} {key : VerifyingKey}
    (known : keys.find? keyId = some key) : keys.answer keyId = .ok key := by
  rw [answer, known]

theorem KeySet.answer_unknown {keys : KeySet} {keyId : String}
    (unknown : keys.find? keyId = none) : keys.answer keyId = .error (.keyNotFound keyId) := by
  rw [answer, unknown]

theorem KeyCache.spaced_of_stale {cache : KeyCache} {now seenAt : Instant} {keyId : String}
    (read : cache.read now keyId = .stale (some seenAt))
    (past : ∀ entry, cache.cached = some entry → entry.fetchedAt ≤ now) :
    seenAt + cache.config.spacing ≤ now := by
  obtain ⟨_, none⟩ | ⟨entry, held, seen, due⟩ := read_stale read
  · cases none
  · cases seen
    have waited : cache.config.spacing ≤ now - entry.fetchedAt := by
      rcases due with expired | ⟨_, due⟩
      · exact Nat.le_trans (Nat.min_le_left _ _) (isExpired_iff.mp expired)
      · exact Nat.le_trans (Nat.min_le_right _ _) due
    exact Nat.add_le_of_le_sub' (past entry held) waited

namespace Desk

variable {desk after : Desk} {next : Move}

/-! ## What a step leaves as it is -/

theorem Step.config (step : desk.Step next after) :
    after.world.keys.config = desk.world.keys.config := by
  cases step with
  | @changed circumstance free => cases circumstance <;> rfl
  | _ => rfl

theorem Step.clock (step : desk.Step next after) : desk.world.clock ≤ after.world.clock := by
  cases step with
  | @changed circumstance free =>
      cases circumstance with
      | advance d => exact Nat.le_add_right _ _
      | _ => exact Nat.le_refl _
  | _ => exact Nat.le_refl _

/-- Nothing but a fetch that succeeds, or somebody who drops it, changes what is cached. -/
theorem Step.keys (step : desk.Step next after) :
    (after.world.keys = desk.world.keys ∧ after.installed = desk.installed) ∨
      (∃ published, next = .arrive ∧
        desk.world.source.fetch desk.world.network = .ok published ∧
        after.world.keys = desk.world.keys.install desk.world.clock (.ofJwks published) ∧
        after.installed = desk.installed ++ [⟨.ofJwks published, desk.world.clock⟩]) ∨
      (next = .change .invalidateKeys ∧ after.world.keys = desk.world.keys.invalidate ∧
        after.installed = desk.installed) := by
  cases step with
  | @arrived errand published underWay answered =>
      exact Or.inr (Or.inl ⟨published, rfl, answered, rfl, rfl⟩)
  | @changed circumstance free =>
      cases circumstance with
      | invalidateKeys => exact Or.inr (Or.inr ⟨rfl, rfl, rfl⟩)
      | _ => exact Or.inl ⟨rfl, rfl⟩
  | _ => exact Or.inl ⟨rfl, rfl⟩

/-! ## Where look-ups come from -/

/-- Where a look-up comes from that is there after a step. -/
inductive Arises (desk after : Desk) (who : Nat) : Lookup → Prop where
  | stays {lookup : Lookup} (before : desk.lookups[who]? = some lookup) :
      Arises desk after who lookup
  | asked (keyId : String) : Arises desk after who (.begun keyId)
  | read (keyId : String) (world : after.world = desk.world)
      (installed : after.installed = desk.installed) :
      Arises desk after who
        (.afterReading keyId (desk.world.keys.read desk.world.clock keyId))
  | tookOver {keyId : String} {seenAt : Option Instant} {keys : KeySet}
      (waits : desk.lookups[who]? = some (.missing keyId seenAt))
      (taken : desk.world.keys.takeOver? desk.world.clock seenAt = some keys)
      (installed : after.installed = desk.installed) :
      Arises desk after who (.ended keyId (some seenAt) (keys.answer keyId))
  | failed {keyId : String} {seenAt : Option Instant} {error : WebhookError}
      (waits : desk.lookups[who]? = some (.missing keyId seenAt))
      (refused : desk.world.source.fetch desk.world.network = .error error)
      (keys : after.world.keys = desk.world.keys)
      (installed : after.installed = desk.installed) :
      Arises desk after who
        (.ended keyId (some seenAt) (.error (.keySetUnavailable error.message)))
  | arrived {keyId : String} {seenAt : Option Instant} (entry : CachedKeys)
      (waits : desk.lookups[who]? = some (.missing keyId seenAt))
      (now : entry.fetchedAt = desk.world.clock)
      (installed : after.installed = desk.installed ++ [entry]) :
      Arises desk after who (.ended keyId (some seenAt) (entry.keys.answer keyId))

theorem Formed.told_cases (formed : desk.Formed) {errand : Errand}
    (underWay : desk.fetching = some errand) {answer : Except VerificationError KeySet}
    {who : Nat} {lookup : Lookup} (found : (desk.told answer errand)[who]? = some lookup) :
    desk.lookups[who]? = some lookup ∨ ∃ keyId seenAt,
      desk.lookups[who]? = some (.missing keyId seenAt) ∧
        lookup = .ended keyId (some seenAt) (Lookup.verdict keyId answer) := by
  cases errand with
  | renewal => exact Or.inl found
  | lookup other =>
      obtain ⟨keyId, seenAt, waits⟩ := formed.errand other underWay
      rw [told_lookup waits] at found
      obtain ⟨_, old⟩ | ⟨rfl, new⟩ := getElem?_replaced found
      · exact Or.inl old
      · exact Or.inr ⟨keyId, seenAt, waits, new⟩

theorem Step.arises (formed : desk.Formed) (step : desk.Step next after) {who : Nat}
    {lookup : Lookup} (found : after.lookups[who]? = some lookup) :
    Arises desk after who lookup := by
  cases step with
  | asked keyId =>
      obtain old | ⟨_, rfl⟩ := getElem?_added found
      · exact .stays old
      · exact .asked keyId
  | @read other keyId free waits =>
      obtain ⟨_, old⟩ | ⟨_, rfl⟩ := getElem?_replaced found
      · exact .stays old
      · exact .read keyId rfl rfl
  | tookOver free waits taken =>
      obtain ⟨_, old⟩ | ⟨rfl, rfl⟩ := getElem?_replaced found
      · exact .stays old
      · exact .tookOver waits taken rfl
  | failed underWay refused =>
      obtain old | ⟨keyId, seenAt, waits, rfl⟩ := formed.told_cases underWay found
      · exact .stays old
      · exact .failed waits refused rfl rfl
  | @arrived _ published underWay answered =>
      obtain old | ⟨keyId, seenAt, waits, rfl⟩ := formed.told_cases underWay found
      · exact .stays old
      · exact .arrived ⟨.ofJwks published, desk.world.clock⟩ waits rfl rfl
  | _ => exact .stays found

/-- A look-up that has missed had missed before, or what it read just now was stale. -/
theorem Arises.missed {who : Nat} {lookup : Lookup} (arises : Arises desk after who lookup)
    {seenAt : Option Instant} (missed : lookup.missed = some seenAt) :
    (∃ earlier ∈ desk.lookups, earlier.missed = some seenAt) ∨
      ∃ keyId, lookup = .missing keyId seenAt ∧
        desk.world.keys.read desk.world.clock keyId = .stale seenAt ∧
        after.world = desk.world ∧ after.installed = desk.installed := by
  cases arises with
  | stays before => exact Or.inl ⟨lookup, List.mem_of_getElem? before, missed⟩
  | asked keyId => cases missed
  | read keyId world installed =>
      cases reading : desk.world.keys.read desk.world.clock keyId with
      | stale seen =>
          rw [reading] at missed
          cases missed
          exact Or.inr ⟨keyId, rfl, reading, world, installed⟩
      | _ =>
          rw [reading] at missed
          cases missed
  | tookOver waits _ _ | failed waits _ _ _ | arrived _ waits _ _ =>
      exact Or.inl ⟨_, List.mem_of_getElem? waits, missed⟩

theorem Arises.missing {who : Nat} {keyId : String} {seenAt : Option Instant}
    (arises : Arises desk after who (.missing keyId seenAt)) :
    desk.lookups[who]? = some (.missing keyId seenAt) ∨
      desk.world.keys.read desk.world.clock keyId = .stale seenAt ∧ after.world = desk.world := by
  generalize missing : Lookup.missing keyId seenAt = lookup at arises
  cases arises with
  | stays before => exact Or.inl before
  | asked other => cases congrArg Lookup.missed missing
  | read asked world installed =>
      cases reading : desk.world.keys.read desk.world.clock asked with
      | stale seen =>
          rw [reading] at missing
          cases missing
          exact Or.inr ⟨reading, world⟩
      | _ =>
          rw [reading] at missing
          cases missing
  | _ => cases missing

/-! ## How look-ups end -/

def result? (desk : Desk) (who : Nat) :
    Option (String × Except VerificationError VerifyingKey) :=
  match desk.lookups[who]? with
  | some ⟨keyId, _, .done result⟩ => some (keyId, result)
  | _ => none

theorem result?_eq_some {who : Nat} {keyId : String}
    {result : Except VerificationError VerifyingKey} :
    desk.result? who = some (keyId, result) ↔
      ∃ missed, desk.lookups[who]? = some (.ended keyId missed result) := by
  constructor
  · intro ended
    unfold result? at ended
    split at ended
    · rename_i missed _ found
      cases ended
      exact ⟨missed, found⟩
    · cases ended
  · rintro ⟨missed, found⟩
    rw [result?, found]
    rfl

theorem missing_alone {who : Nat} {keyId : String} {seenAt : Option Instant}
    (free : desk.fetching = none) (waits : desk.lookups[who]? = some (.missing keyId seenAt)) :
    ∃ moves last result, desk.play moves = some last ∧
      last.result? who = some (keyId, result) ∧
      (Lookup.missing keyId seenAt).rest.run desk.world = some (result, last.world) := by
  have inside := (List.getElem?_eq_some_iff.mp waits).1
  have first := proceed_missing free waits
  cases taken : desk.world.keys.takeOver? desk.world.clock seenAt with
  | some keys =>
      rw [taken] at first
      refine ⟨[.proceed who], _, keys.answer keyId, play_cons first, ?_, ?_⟩
      · exact result?_eq_some.mpr ⟨some seenAt, List.getElem?_set_self inside⟩
      · simp only [Lookup.missing, Program.run, World.perform, World.refreshKeys, taken,
          Lookup.verdict]
  | none =>
      rw [taken] at first
      -- Nobody comes between, so the fetch ends at the instant at which it began.
      have second : move { desk with fetching := some (.lookup who) } .arrive = _ :=
        arrive_told rfl waits
      refine ⟨[.proceed who, .arrive], _, Lookup.verdict keyId desk.world.fetchKeys.1,
        (play_cons first).trans (play_cons second), ?_, ?_⟩
      · exact result?_eq_some.mpr ⟨some seenAt, List.getElem?_set_self inside⟩
      · simp only [Lookup.missing, Program.run, World.perform, World.refreshKeys, taken]

/-- A look-up that nobody comes between does what its program does when it is run alone. -/
theorem look_up_alone {who : Nat} {keyId : String} (free : desk.fetching = none)
    (waits : desk.lookups[who]? = some (.begun keyId)) : ∃ moves last result,
      desk.play moves = some last ∧ last.result? who = some (keyId, result) ∧
        (lookUpKey keyId).outcome.run desk.world = some (result, last.world) := by
  have program : (lookUpKey keyId).outcome.run desk.world = (Lookup.afterReading keyId
      (desk.world.keys.read desk.world.clock keyId)).rest.run desk.world := by
    show (Lookup.begun keyId).rest.run desk.world = _
    rw [Lookup.begun_rest]
    rfl
  have inside := (List.getElem?_eq_some_iff.mp waits).1
  have first := proceed_begun free waits
  rw [program]
  cases reading : desk.world.keys.read desk.world.clock keyId with
  | found key =>
      rw [reading] at first
      refine ⟨[.proceed who], _, .ok key, play_cons first, ?_, rfl⟩
      exact result?_eq_some.mpr ⟨none, List.getElem?_set_self inside⟩
  | absent =>
      rw [reading] at first
      refine ⟨[.proceed who], _, .error (.keyNotFound keyId), play_cons first, ?_, rfl⟩
      exact result?_eq_some.mpr ⟨none, List.getElem?_set_self inside⟩
  | stale seenAt =>
      rw [reading] at first
      have stillFree : fetching { desk with
          lookups := desk.lookups.set who (.missing keyId seenAt) } = none := free
      obtain ⟨moves, last, result, played, ended, run⟩ :=
        missing_alone stillFree (List.getElem?_set_self inside)
      exact ⟨.proceed who :: moves, last, result, (play_cons first).trans played, ended, run⟩

inductive Ends (desk after : Desk) (keyId : String) :
    Option (Option Instant) → Except VerificationError VerifyingKey → Prop where
  | found (entry : CachedKeys) (held : desk.world.keys.cached = some entry)
      (young : desk.world.keys.isExpired desk.world.clock entry = false)
      (installed : after.installed = desk.installed) :
      Ends desk after keyId none (entry.keys.answer keyId)
  | tookOver (seenAt : Option Instant) (entry : CachedKeys)
      (waits : .missing keyId seenAt ∈ desk.lookups)
      (held : desk.world.keys.cached = some entry) (new : some entry.fetchedAt ≠ seenAt)
      (young : desk.world.keys.isExpired desk.world.clock entry = false)
      (installed : after.installed = desk.installed) :
      Ends desk after keyId (some seenAt) (entry.keys.answer keyId)
  | fetched (seenAt : Option Instant) (entry : CachedKeys)
      (waits : .missing keyId seenAt ∈ desk.lookups)
      (now : entry.fetchedAt = desk.world.clock)
      (installed : after.installed = desk.installed ++ [entry]) :
      Ends desk after keyId (some seenAt) (entry.keys.answer keyId)
  | unavailable (seenAt : Option Instant) (error : WebhookError)
      (refused : desk.world.source.fetch desk.world.network = .error error)
      (keys : after.world.keys = desk.world.keys)
      (installed : after.installed = desk.installed) :
      Ends desk after keyId (some seenAt) (.error (.keySetUnavailable error.message))

theorem ends_reading {keyId asked : String} {missed : Option (Option Instant)}
    {result : Except VerificationError VerifyingKey}
    (ended : Lookup.ended keyId missed result =
      .afterReading asked (desk.world.keys.read desk.world.clock asked))
    (installed : after.installed = desk.installed) : Ends desk after keyId missed result := by
  cases reading : desk.world.keys.read desk.world.clock asked with
  | found key =>
      obtain ⟨entry, held, young, known⟩ := KeyCache.read_found reading
      rw [reading, Lookup.afterReading, ← KeySet.answer_known known] at ended
      cases ended
      exact .found entry held young installed
  | absent =>
      obtain ⟨entry, held, young, unknown⟩ := KeyCache.read_absent reading
      rw [reading, Lookup.afterReading, ← KeySet.answer_unknown unknown] at ended
      cases ended
      exact .found entry held young installed
  | stale seenAt =>
      rw [reading] at ended
      cases ended

theorem Arises.ends {who : Nat} {keyId : String} {missed : Option (Option Instant)}
    {result : Except VerificationError VerifyingKey}
    (arises : Arises desk after who (.ended keyId missed result)) :
    desk.lookups[who]? = some (.ended keyId missed result) ∨
      Ends desk after keyId missed result := by
  generalize ended : Lookup.ended keyId missed result = lookup at arises
  cases arises with
  | stays before => exact Or.inl before
  | asked other =>
      have rests := congrArg Lookup.rest ended
      rw [Lookup.begun_rest] at rests
      cases rests
  | read asked world installed => exact Or.inr (ends_reading ended installed)
  | @tookOver _ seenAt keys waits taken installed =>
      obtain ⟨entry, held, rfl, new, young⟩ := KeyCache.takeOver?_eq_some taken
      cases ended
      exact Or.inr (.tookOver seenAt entry (List.mem_of_getElem? waits) held new young installed)
  | @failed _ seenAt error waits refused keys installed =>
      cases ended
      exact Or.inr (.unavailable seenAt error refused keys installed)
  | @arrived _ seenAt entry waits now installed =>
      cases ended
      exact Or.inr (.fetched seenAt entry (List.mem_of_getElem? waits) now installed)

/-! ## How old a set is that is replaced -/

/-- What is cached was fetched before now, and the set on which a look-up has missed has been
there for the spacing. -/
structure Timely (desk : Desk) : Prop where
  past : ∀ entry, desk.world.keys.cached = some entry → entry.fetchedAt ≤ desk.world.clock
  seen : ∀ lookup ∈ desk.lookups, ∀ seenAt, lookup.missed = some (some seenAt) →
    seenAt + desk.world.keys.config.spacing ≤ desk.world.clock

theorem timely_opening {world : World} (empty : world.keys.cached = none) :
    (opening world).Timely where
  past entry held := by
    have nothing : (opening world).world.keys.cached = none := empty
    rw [nothing] at held
    cases held
  seen lookup member := by cases member

theorem Timely.step (timely : desk.Timely) (formed : desk.Formed)
    (step : desk.Step next after) : after.Timely where
  past := by
    intro entry held
    have later := step.clock
    obtain ⟨same, _⟩ | ⟨published, _, _, keys, _⟩ | ⟨_, keys, _⟩ := step.keys
    · rw [same] at held
      exact Nat.le_trans (timely.past entry held) later
    · rw [keys] at held
      cases held
      exact later
    · rw [keys] at held
      cases held
  seen := by
    intro lookup member seenAt missed
    have later := step.clock
    rw [step.config]
    obtain ⟨who, found⟩ := List.getElem?_of_mem member
    -- The set of an earlier miss only gets older; that of a new miss was found old enough.
    obtain ⟨earlier, old, sameMiss⟩ | ⟨keyId, _, reading, _, _⟩ :=
      (step.arises formed found).missed missed
    · exact Nat.le_trans (timely.seen earlier old seenAt sameMiss) later
    · exact Nat.le_trans (KeyCache.spaced_of_stale reading timely.past) later

end Desk

end WebhookRelay
