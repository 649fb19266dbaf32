import WebhookRelay.Proofs.Authenticity
import WebhookRelay.Proofs.KeySteps

/-!
# Keys of the current set

A look-up is answered from one set alone: the one that was installed last, as long as it
is younger than its time to live, or the one that was fetched for it just now.
-/

set_option autoImplicit false

namespace WebhookRelay

namespace Desk

variable {desk after : Desk} {next : Move}

/-! ## The set that is consulted -/

structure Consults (desk after : Desk) (entry : CachedKeys) : Prop where
  latest : after.installed.getLast? = some entry
  past : entry.fetchedAt ≤ desk.world.clock
  current : (after.installed = desk.installed ∧
      desk.world.clock < entry.fetchedAt + desk.world.keys.config.ttl.nanos) ∨
    (after.installed = desk.installed ++ [entry] ∧ entry.fetchedAt = desk.world.clock)

/-- What a look-up can end with in a step. -/
inductive Answers (desk after : Desk) (keyId : String) :
    Except VerificationError VerifyingKey → Prop where
  | known {entry : CachedKeys} {key : VerifyingKey} (consulted : desk.Consults after entry)
      (known : entry.keys.find? keyId = some key) : Answers desk after keyId (.ok key)
  | unknown {entry : CachedKeys} (consulted : desk.Consults after entry)
      (unknown : entry.keys.find? keyId = none) :
      Answers desk after keyId (.error (.keyNotFound keyId))
  | unavailable {error : WebhookError}
      (refused : desk.world.source.fetch desk.world.network = .error error)
      (keys : after.world.keys = desk.world.keys)
      (installed : after.installed = desk.installed) :
      Answers desk after keyId (.error (.keySetUnavailable error.message))

theorem Consults.answers {entry : CachedKeys} (consulted : desk.Consults after entry)
    (keyId : String) : desk.Answers after keyId (entry.keys.answer keyId) := by
  cases found : entry.keys.find? keyId with
  | some key =>
      rw [KeySet.answer_known found]
      exact .known consulted found
  | none =>
      rw [KeySet.answer_unknown found]
      exact .unknown consulted found

/-! ## The current set -/

/-- What is cached is what was installed last.  A look-up that has missed on a set will not
find its key there later on: the set has expired or it lacks the key id. -/
structure Current (desk : Desk) : Prop extends desk.Timely where
  latest : ∀ entry, desk.world.keys.cached = some entry → desk.installed.getLast? = some entry
  spent : ∀ keyId seenAt, .missing keyId (some seenAt) ∈ desk.lookups →
    0 < desk.world.keys.config.minRefreshInterval.nanos →
    ∀ entry, desk.world.keys.cached = some entry → entry.fetchedAt = seenAt →
      desk.world.keys.isExpired desk.world.clock entry = true ∨ entry.keys.find? keyId = none

theorem current_opening {world : World} (empty : world.keys.cached = none) :
    (opening world).Current where
  toTimely := timely_opening empty
  latest entry held := by
    have nothing : (opening world).world.keys.cached = none := empty
    rw [nothing] at held
    cases held
  spent keyId seenAt member := by cases member

/-- A set that was found stale stays expired or lacks the key id. -/
theorem spent_of_stale {keyId : String} {seenAt : Instant}
    (read : desk.world.keys.read desk.world.clock keyId = .stale (some seenAt))
    {entry : CachedKeys} (held : desk.world.keys.cached = some entry) :
    desk.world.keys.isExpired desk.world.clock entry = true ∨ entry.keys.find? keyId = none := by
  obtain ⟨_, none⟩ | ⟨other, cached, _, due⟩ := KeyCache.read_stale read
  · cases none
  · rw [held] at cached
    cases cached
    exact due.imp_right And.left

theorem Step.expired (step : desk.Step next after) {entry : CachedKeys}
    (expired : desk.world.keys.isExpired desk.world.clock entry = true) :
    after.world.keys.isExpired after.world.clock entry = true := by
  have expired := KeyCache.isExpired_iff.mp expired
  apply KeyCache.isExpired_iff.mpr
  rw [step.config]
  exact Nat.le_trans expired (Nat.sub_le_sub_right step.clock _)

theorem Current.step (current : desk.Current) (formed : desk.Formed)
    (step : desk.Step next after) : after.Current where
  toTimely := current.toTimely.step formed step
  latest := by
    intro entry held
    obtain ⟨same, installed⟩ | ⟨published, _, _, keys, installed⟩ | ⟨_, keys, _⟩ := step.keys
    · rw [same] at held
      rw [installed]
      exact current.latest entry held
    · rw [keys] at held
      cases held
      rw [installed]
      exact List.getLast?_concat
    · rw [keys] at held
      cases held
  spent := by
    intro keyId seenAt member positive entry held seen
    rw [step.config] at positive
    obtain ⟨who, found⟩ := List.getElem?_of_mem member
    obtain waits | ⟨reading, world⟩ := (step.arises formed found).missing
    · have waiting := List.mem_of_getElem? waits
      obtain ⟨same, _⟩ | ⟨published, _, _, keys, _⟩ | ⟨_, keys, _⟩ := step.keys
      · rw [same] at held
        exact (current.spent keyId seenAt waiting positive entry held seen).imp_left step.expired
      · -- A set that was installed at the instant that was seen can only be expired.
        rw [keys] at held
        cases held
        have waited := current.seen _ waiting seenAt rfl
        rw [← seen] at waited
        have unspaced : desk.world.keys.config.spacing ≤ 0 := Nat.le_of_add_le_add_left waited
        have short : desk.world.keys.config.ttl.nanos ≤ 0 := by
          unfold KeyCacheConfig.spacing at unspaced
          omega
        refine Or.inl (step.expired (KeyCache.isExpired_iff.mpr ?_))
        exact Nat.le_trans short (Nat.zero_le _)
      · rw [keys] at held
        cases held
    · rw [world] at held ⊢
      exact spent_of_stale reading held

theorem Current.consults (current : desk.Current) {entry : CachedKeys}
    (held : desk.world.keys.cached = some entry)
    (young : desk.world.keys.isExpired desk.world.clock entry = false)
    (installed : after.installed = desk.installed) : desk.Consults after entry where
  latest := by
    rw [installed]
    exact current.latest entry held
  past := current.past entry held
  current := by
    refine Or.inl ⟨installed, ?_⟩
    have within : ¬desk.world.keys.config.ttl.nanos ≤ desk.world.clock - entry.fetchedAt := by
      rw [← KeyCache.isExpired_iff, young]
      exact Bool.false_ne_true
    exact (Nat.sub_lt_iff_lt_add' (current.past entry held)).mp (Nat.lt_of_not_le within)

theorem Current.answers (current : desk.Current) {keyId : String}
    {missed : Option (Option Instant)} {result : Except VerificationError VerifyingKey}
    (ends : desk.Ends after keyId missed result) : desk.Answers after keyId result := by
  cases ends with
  | found entry held young installed =>
      exact (current.consults held young installed).answers keyId
  | tookOver seenAt entry waits held new young installed =>
      exact (current.consults held young installed).answers keyId
  | fetched seenAt entry waits now installed =>
      refine Consults.answers ⟨?_, Nat.le_of_eq now, Or.inr ⟨installed, now⟩⟩ keyId
      rw [installed]
      exact List.getLast?_concat
  | unavailable seenAt error refused keys installed => exact .unavailable refused keys installed

theorem Current.play {world : World} (empty : world.keys.cached = none) {moves : List Move}
    (played : (opening world).play moves = some desk) : desk.Formed ∧ desk.Current := by
  refine play_preserves Desk.Current ?_ (formed_opening world) (current_opening empty) played
  intro next _ before after formed current step
  exact current.step formed step

/-! ## Look-ups without a fetch -/

theorem found_at_once {who : Nat} {keyId : String} {entry : CachedKeys} {key : VerifyingKey}
    (free : desk.fetching = none) (waits : desk.lookups[who]? = some (.begun keyId))
    (held : desk.world.keys.cached = some entry)
    (young : desk.world.keys.isExpired desk.world.clock entry = false)
    (known : entry.keys.find? keyId = some key) :
    desk.move (.proceed who) = some { desk with
      lookups := desk.lookups.set who (.ended keyId none (.ok key)) } := by
  rw [proceed_begun free waits, KeyCache.read_of_known held young known]
  rfl

/-- What a look-up that has missed does when it comes upon its key in an unexpired set.  It tells
this set from the one that it saw by the instants at which they were fetched, so it takes its key
over unless they are the same instant; then it fetches.  The set that it saw had no such key, so
the second case takes two sets of one instant and an interval of zero. -/
theorem Current.resumes (current : desk.Current) {who : Nat} {keyId : String}
    {seenAt : Option Instant} {entry : CachedKeys} {key : VerifyingKey}
    (free : desk.fetching = none) (waits : desk.lookups[who]? = some (.missing keyId seenAt))
    (held : desk.world.keys.cached = some entry)
    (young : desk.world.keys.isExpired desk.world.clock entry = false)
    (known : entry.keys.find? keyId = some key) :
    (seenAt ≠ some entry.fetchedAt ∧
        desk.move (.proceed who) = some { desk with
          lookups := desk.lookups.set who (.ended keyId (some seenAt) (.ok key)) }) ∨
      (seenAt = some entry.fetchedAt ∧ desk.world.keys.config.minRefreshInterval.nanos = 0 ∧
        desk.move (.proceed who) = some { desk with fetching := some (.lookup who) }) := by
  by_cases seen : seenAt = some entry.fetchedAt
  · subst seen
    have unspaced : desk.world.keys.config.minRefreshInterval.nanos = 0 := by
      by_contra positive
      obtain expired | unknown := current.spent keyId entry.fetchedAt
        (List.mem_of_getElem? waits) (Nat.pos_of_ne_zero positive) entry held rfl
      · rw [young] at expired
        cases expired
      · rw [known] at unknown
        cases unknown
    have nothing : desk.world.keys.takeOver? desk.world.clock (some entry.fetchedAt) = none := by
      simp [KeyCache.takeOver?, held]
    refine Or.inr ⟨rfl, unspaced, ?_⟩
    rw [proceed_missing free waits, nothing]
  · have taken : desk.world.keys.takeOver? desk.world.clock seenAt = some entry.keys := by
      simp [KeyCache.takeOver?, held, Ne.symm seen, young]
    refine Or.inl ⟨seen, ?_⟩
    rw [proceed_missing free waits, taken, ← KeySet.answer_known known]

/-! ## Fetches that fail -/

theorem Formed.refused (formed : desk.Formed) {errand : Errand} {error : WebhookError}
    (underWay : desk.fetching = some errand)
    (refused : desk.world.source.fetch desk.world.network = .error error) :
    ∃ after, desk.move .arrive = some after ∧ after.world.keys = desk.world.keys ∧
      after.installed = desk.installed ∧
      ∀ who, errand = .lookup who → ∃ lookup, desk.lookups[who]? = some lookup ∧
        after.result? who =
          some (lookup.keyId, .error (.keySetUnavailable error.message)) := by
  refine ⟨_, move_arrive underWay, ?_, ?_, ?_⟩
  · simp only [World.fetchKeys, refused]
  · simp only [fetched, World.fetchKeys, refused, List.append_nil]
  · rintro who rfl
    obtain ⟨keyId, seenAt, waits⟩ := formed.errand who underWay
    refine ⟨_, waits, ?_⟩
    apply result?_eq_some.mpr
    refine ⟨some seenAt, ?_⟩
    rw [told_lookup waits]
    simp only [World.fetchKeys, refused]
    exact List.getElem?_set_self (List.getElem?_eq_some_iff.mp waits).1

end Desk

/-- While look-ups, fetches and the clock go on in any order, a look-up that ends is answered
from one set, the one that was installed last, which is younger than its time to live or
was fetched in that step.  It names a key as unknown only where that set lacks it.  A fetch
that fails leaves what is cached, and its look-up ends with the failure.  A look-up that in its
first step comes upon its key in an unexpired set is answered without a fetch.  So is one that
has missed on another set, unless the two sets were fetched at one instant; that can only be
where the interval between forced fetches is zero, and then the look-up fetches. -/
theorem look_ups_answer_from_the_current_keys {world : World}
    (empty : world.keys.cached = none) {moves : List Desk.Move} {desk : Desk}
    (played : (Desk.opening world).play moves = some desk) :
    (∀ next after who keyId result, desk.move next = some after →
      desk.result? who = none → after.result? who = some (keyId, result) →
      desk.Answers after keyId result) ∧
    (∀ errand error, desk.fetching = some errand →
      desk.world.source.fetch desk.world.network = .error error →
      ∃ after, desk.move .arrive = some after ∧ after.world.keys = desk.world.keys ∧
        after.installed = desk.installed ∧
        ∀ who, errand = .lookup who → ∃ lookup, desk.lookups[who]? = some lookup ∧
          after.result? who =
            some (lookup.keyId, .error (.keySetUnavailable error.message))) ∧
    ∀ who keyId entry key, desk.fetching = none → desk.world.keys.cached = some entry →
      desk.world.keys.isExpired desk.world.clock entry = false →
      entry.keys.find? keyId = some key →
      (desk.lookups[who]? = some (.begun keyId) →
        desk.move (.proceed who) = some { desk with
          lookups := desk.lookups.set who (.ended keyId none (.ok key)) }) ∧
      ∀ seenAt, desk.lookups[who]? = some (.missing keyId seenAt) →
        (seenAt ≠ some entry.fetchedAt ∧
          desk.move (.proceed who) = some { desk with
            lookups := desk.lookups.set who (.ended keyId (some seenAt) (.ok key)) }) ∨
        (seenAt = some entry.fetchedAt ∧
          desk.world.keys.config.minRefreshInterval.nanos = 0 ∧
          desk.move (.proceed who) = some { desk with fetching := some (.lookup who) }) := by
  obtain ⟨formed, current⟩ := Desk.Current.play empty played
  refine ⟨?_, ?_, ?_⟩
  · intro next after who keyId result moved running ended
    obtain ⟨missed, found⟩ := Desk.result?_eq_some.mp ended
    obtain before | ends := ((formed.step moved).arises formed found).ends
    · rw [Desk.result?_eq_some.mpr ⟨missed, before⟩] at running
      cases running
    · exact current.answers ends
  · intro errand error underWay refused
    exact formed.refused underWay refused
  · intro who keyId entry key free held young known
    refine ⟨?_, ?_⟩
    · intro waits
      exact Desk.found_at_once free waits held young known
    · intro seenAt waits
      exact current.resumes free waits held young known

namespace Sample

/-- Two look-ups miss.  The first one fetches, which takes a second, while the other one
waits. -/
def twoMisses : List Desk.Move :=
  [.ask "k", .ask "k", .proceed 0, .proceed 1, .proceed 0, .change (.advance (.ofSeconds 1)),
    .arrive]

set_option maxRecDepth 100000 in
theorem waiting_look_up_answers_from_the_current_keys :
    ∃ desk after key,
      (Desk.opening { source := .held ⟨[publishedKey]⟩ false }).play twoMisses = some desk ∧
        desk.move (.proceed 1) = some after ∧ after.result? 1 = some ("k", .ok key) ∧
        desk.Answers after "k" (.ok key) := by
  obtain ⟨desk, played, running, after, moved, ⟨keyId, result⟩, ended, isSame, isKey⟩ :
      ∃ desk ∈ (Desk.opening { source := .held ⟨[publishedKey]⟩ false }).play twoMisses,
        desk.result? 1 = none ∧ ∃ after ∈ desk.move (.proceed 1),
          ∃ ended ∈ after.result? 1, ended.1 = "k" ∧ ended.2.isOk = true := by decide +kernel
  obtain rfl : keyId = "k" := isSame
  cases result with
  | error error => cases isKey
  | ok key =>
      obtain ⟨answers, _⟩ := look_ups_answer_from_the_current_keys rfl played
      exact ⟨desk, after, key, played, moved, ended,
        answers (.proceed 1) after 1 "k" (.ok key) moved running ended⟩

def hastyWorld (published : JwkSet) : World where
  keys := { config := { minRefreshInterval := .ofSeconds 0 } }
  source := .held published false

/-- A set without keys is installed, and two look-ups miss on it.  Then a key is published, and
the first one of them fetches.  No time passes. -/
def twoSetsAtOnce : List Desk.Move :=
  [.ask "k", .proceed 0, .proceed 0, .arrive, .ask "k", .ask "k", .proceed 1, .proceed 2,
    .change (.publish (.held ⟨[publishedKey]⟩ false)), .proceed 1, .arrive]

/-- A set with a key is installed, and the key is withdrawn where it is published.  A look-up of
another key begins, and then one of this key. -/
def withdrawnKey : List Desk.Move :=
  [.ask "k", .proceed 0, .proceed 0, .arrive, .change (.publish (.held ⟨[]⟩ false)),
    .ask "ghost", .ask "k"]

set_option maxRecDepth 100000 in
/-- After two sets at once, the second look-up comes upon its key in the unexpired set, and
fetches.  And a look-up that began while the unexpired set had its key fetches as well, if it
had to wait for the fetch of another one. -/
theorem known_key_is_fetched_again :
    (∃ desk ∈ (Desk.opening (hastyWorld ⟨[]⟩)).play twoSetsAtOnce,
      desk.fetching = none ∧ desk.result? 2 = none ∧
      (∃ entry ∈ desk.world.keys.cached,
        desk.world.keys.isExpired desk.world.clock entry = false ∧
        (entry.keys.find? "k").isSome = true) ∧
      ∃ after ∈ desk.move (.proceed 2), after.fetching = some (.lookup 2)) ∧
    ∃ desk ∈ (Desk.opening (hastyWorld ⟨[publishedKey]⟩)).play withdrawnKey,
      (∃ entry ∈ desk.world.keys.cached,
        desk.world.keys.isExpired desk.world.clock entry = false ∧
        (entry.keys.find? "k").isSome = true) ∧
      ∃ after ∈ desk.play [.proceed 1, .proceed 1, .arrive, .proceed 2, .proceed 2],
        after.fetching = some (.lookup 2) := by
  decide +kernel

end Sample

end WebhookRelay
