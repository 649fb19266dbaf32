import WebhookRelay.Proofs.CurrentKeys

/-!
# Fetches are shared and spaced

As long as nobody asks for a fetch out of turn or drops what is cached, the sets that are
installed are apart by the spacing at least: a look-up that fetches has seen that the
latest set was old enough, and nobody has installed another one since.  So the look-ups
that have missed on one set wait for the same fetch.
-/

set_option autoImplicit false

namespace WebhookRelay

namespace Desk

variable {desk after : Desk} {next : Move}

/-- A move that neither asks for a fetch out of turn nor drops what is cached. -/
def Move.Plain : Move → Prop
  | .renew => False
  | .change .invalidateKeys => False
  | _ => True

def installedSince (desk : Desk) : Option Instant → List CachedKeys
  | none => desk.installed
  | some seenAt => desk.installed.filter fun entry => seenAt < entry.fetchedAt

theorem mem_installedSince {seenAt : Option Instant} {entry : CachedKeys} :
    entry ∈ desk.installedSince seenAt ↔
      entry ∈ desk.installed ∧ ∀ seen, seenAt = some seen → seen < entry.fetchedAt := by
  cases seenAt with
  | none => simp [installedSince]
  | some seen => simp [installedSince]

theorem Step.installed (step : desk.Step next after) {entry : CachedKeys}
    (member : entry ∈ desk.installed) : entry ∈ after.installed := by
  obtain ⟨_, installed⟩ | ⟨published, _, _, _, installed⟩ | ⟨_, _, installed⟩ := step.keys
  · rw [installed]
    exact member
  · rw [installed]
    exact List.mem_append_left _ member
  · rw [installed]
    exact member

theorem Step.installedSince (step : desk.Step next after) {seenAt : Option Instant}
    {entry : CachedKeys} (member : entry ∈ desk.installedSince seenAt) :
    entry ∈ after.installedSince seenAt := by
  obtain ⟨old, later⟩ := mem_installedSince.mp member
  exact mem_installedSince.mpr ⟨step.installed old, later⟩

/-- What a look-up that has missed may end with: the failure of a fetch, or what a set says
that was installed since. -/
def Served (desk : Desk) (keyId : String) (seenAt : Option Instant)
    (result : Except VerificationError VerifyingKey) : Prop :=
  (∃ message, result = .error (.keySetUnavailable message)) ∨
    ∃ entry ∈ desk.installedSince seenAt, result = entry.keys.answer keyId

theorem Served.step {keyId : String} {seenAt : Option Instant}
    {result : Except VerificationError VerifyingKey}
    (served : desk.Served keyId seenAt result) (step : desk.Step next after) :
    after.Served keyId seenAt result := by
  obtain unavailable | ⟨entry, member, answered⟩ := served
  · exact Or.inl unavailable
  · exact Or.inr ⟨entry, step.installedSince member, answered⟩

/-- The sets that were installed are apart by the spacing, and so is the fetch that is under
way.  A look-up that has missed on a set and has ended was served with a later one. -/
structure Spaced (desk : Desk) : Prop extends desk.Timely where
  latest : desk.world.keys.cached = desk.installed.getLast?
  apart : desk.installed.Pairwise fun early late =>
    early.fetchedAt + desk.world.keys.config.spacing ≤ late.fetchedAt
  rested : desk.fetching ≠ none → ∀ entry ∈ desk.installed,
    entry.fetchedAt + desk.world.keys.config.spacing ≤ desk.world.clock
  source : ∀ lookup ∈ desk.lookups, ∀ seenAt, lookup.missed = some (some seenAt) →
    ∃ entry ∈ desk.installed, entry.fetchedAt = seenAt
  served : 0 < desk.world.keys.config.spacing → ∀ keyId seenAt result,
    .ended keyId (some seenAt) result ∈ desk.lookups → desk.Served keyId seenAt result

theorem spaced_opening {world : World} (empty : world.keys.cached = none) :
    (opening world).Spaced where
  toTimely := timely_opening empty
  latest := empty
  apart := List.Pairwise.nil
  rested busy := absurd rfl busy
  source lookup member := by cases member
  served positive keyId seenAt result member := by cases member

namespace Spaced

theorem latest_or_apart (spaced : desk.Spaced) {last entry : CachedKeys}
    (held : desk.world.keys.cached = some last) (member : entry ∈ desk.installed) :
    entry = last ∨ entry.fetchedAt + desk.world.keys.config.spacing ≤ last.fetchedAt := by
  rw [spaced.latest] at held
  obtain ⟨earlier, split⟩ := List.getLast?_eq_some_iff.mp held
  have apart := spaced.apart
  rw [split] at apart member
  rcases List.mem_append.mp member with old | new
  · have before := (List.pairwise_append.mp apart).2.2
    exact Or.inr (before entry old last List.mem_cons_self)
  · exact Or.inl (List.mem_singleton.mp new)

theorem le_latest (spaced : desk.Spaced) {last entry : CachedKeys}
    (held : desk.world.keys.cached = some last) (member : entry ∈ desk.installed) :
    entry.fetchedAt ≤ last.fetchedAt := by
  rcases spaced.latest_or_apart held member with rfl | apart
  · exact Nat.le_refl _
  · exact Nat.le_trans (Nat.le_add_right _ _) apart

theorem held_installed (spaced : desk.Spaced) {entry : CachedKeys}
    (held : desk.world.keys.cached = some entry) : entry ∈ desk.installed := by
  rw [spaced.latest] at held
  exact List.mem_of_getLast? held

theorem exists_latest (spaced : desk.Spaced) {entry : CachedKeys}
    (member : entry ∈ desk.installed) : ∃ last, desk.world.keys.cached = some last := by
  rw [spaced.latest]
  exact Option.isSome_iff_exists.mp (List.getLast?_isSome.mpr (List.ne_nil_of_mem member))

theorem installed_past (spaced : desk.Spaced) {entry : CachedKeys}
    (member : entry ∈ desk.installed) : entry.fetchedAt ≤ desk.world.clock := by
  obtain ⟨last, held⟩ := spaced.exists_latest member
  exact Nat.le_trans (spaced.le_latest held member) (spaced.past last held)

/-- A look-up that finds nothing to take over has waited long enough since every fetch. -/
theorem due (spaced : desk.Spaced) {who : Nat} {keyId : String} {seenAt : Option Instant}
    (waits : desk.lookups[who]? = some (.missing keyId seenAt))
    (nothing : desk.world.keys.takeOver? desk.world.clock seenAt = none) :
    ∀ entry ∈ desk.installed,
      entry.fetchedAt + desk.world.keys.config.spacing ≤ desk.world.clock := by
  intro entry member
  obtain ⟨last, held⟩ := spaced.exists_latest member
  have rested : last.fetchedAt + desk.world.keys.config.spacing ≤ desk.world.clock := by
    rcases KeyCache.takeOver?_eq_none nothing held with seen | expired
    · exact spaced.seen _ (List.mem_of_getElem? waits) _ (congrArg some seen.symm)
    · refine Nat.add_le_of_le_sub' (spaced.past last held) ?_
      exact Nat.le_trans (Nat.min_le_left _ _) (KeyCache.isExpired_iff.mp expired)
  exact Nat.le_trans (Nat.add_le_add_right (spaced.le_latest held member) _) rested

theorem step (spaced : desk.Spaced) (formed : desk.Formed) (step : desk.Step next after)
    (plain : next.Plain) : after.Spaced where
  toTimely := spaced.toTimely.step formed step
  latest := by
    obtain ⟨same, installed⟩ | ⟨published, _, _, keys, installed⟩ | ⟨rfl, _⟩ := step.keys
    · rw [same, installed]
      exact spaced.latest
    · rw [keys, installed, List.getLast?_concat]
      rfl
    · exact plain.elim
  apart := by
    rw [step.config]
    cases step with
    | arrived underWay answered =>
        have rested := spaced.rested (by rw [underWay]; exact Option.some_ne_none _)
        refine List.pairwise_append.mpr ⟨spaced.apart, List.pairwise_singleton _ _, ?_⟩
        intro early member late new
        obtain rfl := List.mem_singleton.mp new
        exact rested early member
    | _ => exact spaced.apart
  rested := by
    intro busy entry member
    rw [step.config]
    have later := step.clock
    -- A fetch begins when the spacing has passed, and while it lasts nothing is installed.
    cases step with
    | asked keyId => exact spaced.rested busy entry member
    | read free waits => exact absurd free busy
    | tookOver free waits taken => exact absurd free busy
    | began free waits nothing => exact spaced.due waits nothing entry member
    | renewed free => exact plain.elim
    | failed underWay refused => exact absurd rfl busy
    | arrived underWay answered => exact absurd rfl busy
    | @changed circumstance free =>
        have installed : entry ∈ desk.installed := member
        exact Nat.le_trans (spaced.rested busy entry installed) later
  source := by
    intro lookup member seenAt missed
    obtain ⟨who, found⟩ := List.getElem?_of_mem member
    obtain ⟨earlier, old, sameMiss⟩ | ⟨keyId, _, reading, _, installed⟩ :=
      (step.arises formed found).missed missed
    · obtain ⟨entry, there, fetched⟩ := spaced.source earlier old seenAt sameMiss
      exact ⟨entry, step.installed there, fetched⟩
    · obtain ⟨_, none⟩ | ⟨entry, held, seen, _⟩ := KeyCache.read_stale reading
      · cases none
      · cases seen
        exact ⟨entry, step.installed (spaced.held_installed held), rfl⟩
  served := by
    intro positive keyId seenAt result member
    rw [step.config] at positive
    obtain ⟨who, found⟩ := List.getElem?_of_mem member
    obtain before | ends := (step.arises formed found).ends
    · exact (spaced.served positive keyId seenAt result (List.mem_of_getElem? before)).step step
    · cases ends with
      | unavailable _ error refused keys installed => exact Or.inl ⟨error.message, rfl⟩
      | tookOver _ entry waits held new young installed =>
          refine Or.inr ⟨entry, mem_installedSince.mpr ⟨?_, ?_⟩, rfl⟩
          · rw [installed]
            exact spaced.held_installed held
          · -- The set that was seen was installed before the latest one, or is the latest one.
            rintro seen rfl
            obtain ⟨source, there, fetched⟩ := spaced.source _ waits seen rfl
            have earlier := spaced.le_latest held there
            rw [fetched] at earlier
            exact Nat.lt_of_le_of_ne earlier fun same => new (congrArg some same.symm)
      | fetched _ entry waits now installed =>
          refine Or.inr ⟨entry, mem_installedSince.mpr ⟨?_, ?_⟩, rfl⟩
          · rw [installed]
            exact List.mem_append_right _ List.mem_cons_self
          · rintro seen rfl
            have waited := spaced.seen _ waits seen rfl
            rw [now]
            exact Nat.lt_of_lt_of_le (Nat.lt_add_of_pos_right positive) waited

theorem play {world : World} (empty : world.keys.cached = none) {moves : List Move}
    (plain : ∀ next ∈ moves, next.Plain) (played : (opening world).play moves = some desk) :
    desk.Formed ∧ desk.Spaced := by
  refine play_preserves Desk.Spaced ?_ (formed_opening world) (spaced_opening empty) played
  intro next member before after formed spaced step
  exact spaced.step formed step (plain next member)

theorem begins (spaced : desk.Spaced) (formed : desk.Formed) {who : Nat}
    (moved : desk.move (.proceed who) = some after) (busy : after.fetching ≠ none) :
    ∀ entry ∈ desk.installed,
      entry.fetchedAt + desk.world.keys.config.spacing ≤ desk.world.clock := by
  cases formed.step moved with
  | read free waits => exact absurd free busy
  | tookOver free waits taken => exact absurd free busy
  | began free waits nothing => exact spaced.due waits nothing

/-- Until the spacing has passed, one set has been installed since, and no other. -/
theorem single (spaced : desk.Spaced) {seenAt : Option Instant} {first : CachedKeys}
    {rest : List CachedKeys} (since : desk.installedSince seenAt = first :: rest)
    (early : desk.world.clock < first.fetchedAt + desk.world.keys.config.spacing) :
    rest = [] := by
  have apart : (first :: rest).Pairwise fun early late =>
      early.fetchedAt + desk.world.keys.config.spacing ≤ late.fetchedAt := by
    rw [← since]
    cases seenAt with
    | none => exact spaced.apart
    | some seen => exact spaced.apart.filter _
  apply List.eq_nil_iff_forall_not_mem.mpr
  intro entry member
  have later := (List.pairwise_cons.mp apart).1 entry member
  have among : entry ∈ desk.installedSince seenAt := by
    rw [since]
    exact List.mem_cons_of_mem _ member
  have past := Nat.le_trans later (spaced.installed_past (mem_installedSince.mp among).1)
  exact Nat.not_lt.mpr past early

end Spaced

end Desk

/-- While nobody asks for a fetch out of turn or drops what is cached, no look-up begins a
fetch before the shorter of the time to live and the refresh interval has passed since each
set that was installed.  If both are positive, the look-ups that have missed on the same set
end with a failed fetch or with what a set says that was installed since; and as long as
that time has not passed since the first such set, there is no other. -/
theorem fetches_are_spaced_and_shared {world : World} (empty : world.keys.cached = none)
    {moves : List Desk.Move} (plain : ∀ next ∈ moves, next.Plain) {desk : Desk}
    (played : (Desk.opening world).play moves = some desk) :
    (∀ who after, desk.move (.proceed who) = some after → after.fetching ≠ none →
      ∀ entry ∈ desk.installed,
        entry.fetchedAt + desk.world.keys.config.spacing ≤ desk.world.clock) ∧
    (0 < desk.world.keys.config.ttl.nanos →
      0 < desk.world.keys.config.minRefreshInterval.nanos → ∀ seenAt,
        (∀ (who : Nat) keyId result,
          desk.lookups[who]? = some (Lookup.ended keyId (some seenAt) result) →
          (∃ message, result = .error (.keySetUnavailable message)) ∨
            ∃ entry ∈ desk.installedSince seenAt, result = entry.keys.answer keyId) ∧
        ∀ first rest, desk.installedSince seenAt = first :: rest →
          desk.world.clock < first.fetchedAt + desk.world.keys.config.spacing → rest = []) := by
  obtain ⟨formed, spaced⟩ := Desk.Spaced.play empty plain played
  refine ⟨?_, ?_⟩
  · intro who after moved busy
    exact spaced.begins formed moved busy
  · intro lives waits seenAt
    have positive : 0 < desk.world.keys.config.spacing := Nat.lt_min.mpr ⟨lives, waits⟩
    refine ⟨?_, ?_⟩
    · intro who keyId result ended
      exact spaced.served positive keyId seenAt result (List.mem_of_getElem? ended)
    · intro first rest since early
      exact spaced.single since early

namespace Sample

set_option maxRecDepth 100000 in
theorem two_misses_share_one_fetch :
    (∀ next ∈ twoMisses ++ [.proceed 1], next.Plain) ∧ ∃ desk entry,
      (Desk.opening { source := .held ⟨[publishedKey]⟩ false }).play
          (twoMisses ++ [.proceed 1]) = some desk ∧
        desk.installedSince none = [entry] ∧ desk.world.fetches = 1 ∧
        ∀ (who : Nat) keyId result,
          desk.lookups[who]? = some (Lookup.ended keyId (some none) result) →
          (∃ message, result = .error (.keySetUnavailable message)) ∨
            result = entry.keys.answer keyId := by
  have plain : ∀ next ∈ twoMisses ++ [.proceed 1], next.Plain := by
    simp [twoMisses, Desk.Move.Plain]
  obtain ⟨desk, played, config, fetches, entry, first, early⟩ :
      ∃ desk ∈ (Desk.opening { source := .held ⟨[publishedKey]⟩ false }).play
          (twoMisses ++ [.proceed 1]),
        desk.world.keys.config = {} ∧ desk.world.fetches = 1 ∧
          ∃ entry ∈ (desk.installedSince none).head?,
            desk.world.clock < entry.fetchedAt + desk.world.keys.config.spacing := by
    decide +kernel
  obtain ⟨rest, since⟩ := List.head?_eq_some_iff.mp first
  obtain ⟨served, single⟩ := (fetches_are_spaced_and_shared rfl plain played).2
    (by rw [config]; decide) (by rw [config]; decide) none
  obtain rfl := single entry rest since early
  refine ⟨plain, desk, entry, played, since, fetches, ?_⟩
  intro who keyId result ended
  refine (served who keyId result ended).imp_right ?_
  rintro ⟨other, member, answered⟩
  rw [since] at member
  rwa [List.mem_singleton.mp member] at answered

end Sample

end WebhookRelay
