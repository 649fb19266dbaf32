import WebhookRelay.Proofs.KeyDesk
import WebhookRelay.Proofs.Reliable

/-!
# Verifying the same claim again

A claim that was verified is verified once more, while no time has passed and the keys are
published as before.  Its key is found again, in the cache or by another fetch.  Where
nonces are kept for any time at all, its nonce is still marked, and the second verdict is
that the signature was used before.  Otherwise it is the first verdict again.
-/

set_option autoImplicit false

namespace WebhookRelay

/-! ## Keys that are published as before -/

namespace World

variable {world after : World}

structure SameKeys (before after : World) : Prop where
  cache : after.keys = before.keys
  source : after.source = before.source
  network : after.network = before.network

theorem SameKeys.refl (world : World) : world.SameKeys world := ⟨rfl, rfl, rfl⟩

theorem SameKeys.trans {first second third : World} (before : first.SameKeys second)
    (after : second.SameKeys third) : first.SameKeys third :=
  ⟨after.cache.trans before.cache, after.source.trans before.source,
    after.network.trans before.network⟩

theorem perform_sameKeys {call : Call} {answer : call.Answer}
    (noFetch : ∀ seenAt, call ≠ .refreshKeys seenAt)
    (performed : world.perform call = some (answer, after)) : world.SameKeys after := by
  have differs := perform_differs performed
  cases call with
  | refreshKeys seenAt => exact absurd rfl (noFetch seenAt)
  | _ => exact ⟨differs.keys (by simp [Call.part?]), differs.source, differs.network⟩

/-- No time has passed, and nothing has changed that a verdict depends on. -/
structure Poised (before after : World) : Prop where
  keys : before.SameKeys after
  nonces : before.Unmarked .nonces after

theorem Poised.refl (world : World) : world.Poised world :=
  ⟨.refl world, .refl world⟩

theorem Poised.trans {first second third : World} (before : first.Poised second)
    (after : second.Poised third) : first.Poised third :=
  ⟨before.keys.trans after.keys, before.nonces.trans after.nonces⟩

theorem perform_poised {receiver : Receiver} {request : Receiver.Request} {call : Call}
    {answer : call.Answer} (concludes : receiver.Concludes request call)
    (performed : world.perform call = some (answer, after)) : world.Poised after := by
  have elsewhere : call.touches .nonces = false := by
    cases call with
    | unmark =>
        rw [Call.touches, concludes]
        rfl
    | mark | tryMark =>
        rw [Call.touches, concludes.1]
        rfl
    | _ => rfl
  have noFetch : ∀ seenAt, call ≠ .refreshKeys seenAt := by
    rintro seenAt rfl
    exact concludes
  exact ⟨perform_sameKeys noFetch performed, perform_unmarked elsewhere performed⟩

end World

/-! ## Looking up the same key -/

section LookingUp

variable {world looked later : World} {keyId : String} {key : VerifyingKey}

/-- Nobody else installs keys within a look-up that runs alone, so it has nothing to take
over. -/
theorem World.refreshKeys_of_stale {seenAt : Option Instant}
    (read : world.keys.read world.clock keyId = .stale seenAt) :
    world.refreshKeys seenAt = world.fetchKeys := by
  have nothing : world.keys.takeOver? world.clock seenAt = none := by
    by_contra some
    obtain ⟨keys, taken⟩ := Option.ne_none_iff_exists'.mp some
    obtain ⟨entry, held, _, new, _⟩ := KeyCache.takeOver?_eq_some taken
    rcases KeyCache.read_stale read with ⟨empty, _⟩ | ⟨other, same, seen, _⟩
    · rw [empty] at held
      cases held
    · rw [held] at same
      cases same
      exact new seen.symm
  rw [World.refreshKeys, nothing]

theorem World.offers_of_found (read : world.keys.read world.clock keyId = .found key) :
    world.Offers keyId key := by
  refine ⟨world, ?_⟩
  have performed : world.perform (.readKeys keyId) = some (.found key, world) := by
    rw [World.perform, read]
  rw [lookUpKey_outcome, Program.run_call performed]
  rfl

theorem World.offers_of_published {seenAt : Option Instant} {published : JwkSet}
    (read : world.keys.read world.clock keyId = .stale seenAt)
    (answered : world.source.fetch world.network = .ok published)
    (found : (KeySet.ofJwks published).find? keyId = some key) : world.Offers keyId key := by
  have reading : world.perform (.readKeys keyId) = some (.stale seenAt, world) := by
    rw [World.perform, read]
  have fetching : world.perform (.refreshKeys seenAt) =
      some (.ok (.ofJwks published), world.fetched published) := by
    rw [World.perform, World.refreshKeys_of_stale read, World.fetchKeys_ok answered]
  refine ⟨world.fetched published, ?_⟩
  rw [lookUpKey_outcome, Program.run_call reading]
  refine (Program.run_call fetching).trans ?_
  simp only [found]
  rfl

/-- A key that was looked up was in the cache, or it is published and in the cache from
then on. -/
theorem lookUpKey_found
    (run : (lookUpKey keyId).outcome.run world = some (.ok key, looked)) :
    (world.keys.read world.clock keyId = .found key ∧ looked = world) ∨
      ∃ published, world.source.fetch world.network = .ok published ∧
        (KeySet.ofJwks published).find? keyId = some key ∧ looked = world.fetched published := by
  rw [lookUpKey_outcome] at run
  have reading : world.perform (.readKeys keyId) =
      some (world.keys.read world.clock keyId, world) := rfl
  rw [Program.run_call reading] at run
  cases read : world.keys.read world.clock keyId with
  | found other =>
      rw [read] at run
      cases run
      exact Or.inl ⟨rfl, rfl⟩
  | absent =>
      rw [read] at run
      cases run
  | stale seenAt =>
      rw [read] at run
      have refreshing : world.perform (.refreshKeys seenAt) = some world.fetchKeys := by
        rw [World.perform, World.refreshKeys_of_stale read]
      cases answered : world.source.fetch world.network with
      | error error =>
          rw [World.fetchKeys_error answered] at refreshing
          have failed := (Program.run_call refreshing).symm.trans run
          cases failed
      | ok published =>
          rw [World.fetchKeys_ok answered] at refreshing
          have goesOn := (Program.run_call refreshing).symm.trans run
          dsimp only at goesOn
          split at goesOn
          · rename_i found
            cases goesOn
            exact Or.inr ⟨published, rfl, found, rfl⟩
          · cases goesOn

theorem lookUpKey_again
    (run : (lookUpKey keyId).outcome.run world = some (.ok key, looked))
    (clock : later.clock = looked.clock) (same : looked.SameKeys later) :
    later.Offers keyId key := by
  obtain ⟨read, rfl⟩ | ⟨published, answered, found, rfl⟩ := lookUpKey_found run
  · apply World.offers_of_found
    rw [same.cache, clock]
    exact read
  · let entry : CachedKeys := ⟨.ofJwks published, later.clock⟩
    have held : later.keys.cached = some entry := by
      rw [same.cache]
      simp only [entry, clock]
      rfl
    cases expired : later.keys.isExpired later.clock entry with
    | false =>
        apply World.offers_of_found
        exact KeyCache.read_of_known held expired found
    -- Keys that live for no time are expired at once, and are fetched again.
    | true =>
        have read : later.keys.read later.clock keyId = .stale (some later.clock) := by
          simp only [KeyCache.read, held, expired]
          rfl
        refine World.offers_of_published read ?_ found
        rw [same.source, same.network]
        exact answered

theorem lookUpKey_unmarked {marks : Marks} {found : Except VerificationError VerifyingKey}
    (run : (lookUpKey keyId).outcome.run world = some (found, looked)) :
    world.Unmarked marks looked :=
  (lookUpKey_unmarking keyId marks).run_preserves World.Unmarked.refl World.Unmarked.trans
    World.perform_unmarked run

end LookingUp

/-! ## Marking the same key -/

section Marking

variable {world after : World} {marks : Marks} {mode : MarkMode} {key : String}
  {ttl : Duration}

/-- A key that is put for no time is dropped by the next purge. -/
theorem ExpiringSet.not_has_purge_put {set : ExpiringSet} {now expiresAt : Instant}
    (past : expiresAt ≤ now) : ¬((set.put key expiresAt).purge now).Has key := by
  rintro ⟨entry, member, same⟩
  obtain ⟨inside, live⟩ := List.mem_filter.mp member
  rcases List.mem_cons.mp inside with rfl | other
  · have stillLive : now < expiresAt := of_decide_eq_true live
    exact Nat.not_lt.mpr past stillLive
  · have distinct := (List.mem_filter.mp other).2
    simp [same] at distinct

theorem markIfAbsent_refused
    (run : (markIfAbsent marks mode key ttl).outcome.run world = some (.ok false, after)) :
    ((world.marks marks).purge world.clock).Has key := by
  rw [markIfAbsent_outcome] at run
  cases mode with
  | atomic =>
      obtain ⟨answer, middle, performed, run⟩ := Program.run_call_eq_some.mp run
      cases run
      exact (ExpiringSet.insertIfAbsent?_known (World.perform_tryMark_inserts performed)).2
  | stepwise =>
      obtain ⟨answer, middle, performed, run⟩ := Program.run_call_eq_some.mp run
      match answer with
      | .error error => cases run
      | .ok true => exact ExpiringSet.live_of_contains (World.perform_seen performed).symm
      | .ok false =>
          obtain ⟨answer, _, _, run⟩ := Program.run_call_eq_some.mp run
          cases answer <;> cases run

theorem markIfAbsent_fresh
    (run : (markIfAbsent marks mode key ttl).outcome.run world = some (.ok true, after)) :
    (∀ expiresAt, (world.marks marks).expiry? key = some expiresAt →
      expiresAt ≤ world.clock) ∧
    (world.marks marks).insert? world.clock key ttl = some (after.marks marks) ∧
    after.clock = world.clock := by
  rw [markIfAbsent_outcome] at run
  cases mode with
  | atomic =>
      obtain ⟨answer, middle, performed, run⟩ := Program.run_call_eq_some.mp run
      cases run
      obtain ⟨expired, put⟩ :=
        ExpiringSet.insertIfAbsent?_fresh (World.perform_tryMark_inserts performed)
      exact ⟨expired, put, World.perform_clock performed⟩
  | stepwise =>
      obtain ⟨answer, looked, performed, run⟩ := Program.run_call_eq_some.mp run
      match answer with
      | .error error => cases run
      | .ok true => cases run
      | .ok false =>
          obtain ⟨answer, middle, marked, run⟩ := Program.run_call_eq_some.mp run
          cases answer with
          | error error => cases run
          | ok done =>
              cases run
              have unmarked : world.Unmarked marks looked :=
                World.perform_unmarked rfl performed
              have put := World.perform_mark marked
              rw [unmarked.same, unmarked.clock] at put
              refine ⟨fun expiresAt found => ?_, put,
                (World.perform_clock marked).trans unmarked.clock⟩
              have absent := World.perform_seen performed
              simp only [ExpiringSet.contains, found] at absent
              exact Nat.le_of_not_lt (of_decide_eq_false absent.symm)

/-- A key that was marked as new and is marked again at once is refused, unless it was
marked for no time. -/
theorem markIfAbsent_again {marked : World}
    (run : (markIfAbsent marks mode key ttl).outcome.run world = some (.ok true, marked))
    {later : World} (same : marked.Unmarked marks later) (clear : later.Clear marks.sites) :
    ∃ fresh last, (markIfAbsent marks mode key ttl).outcome.run later =
        some (.ok fresh, last) ∧ (fresh = true ↔ ttl.nanos = 0) := by
  obtain ⟨_, inserted, clock⟩ := markIfAbsent_fresh run
  obtain ⟨dated, put⟩ := ExpiringSet.insert?_eq_some inserted
  have now : later.clock = world.clock := same.clock.trans clock
  have set : later.marks marks =
      ((world.marks marks).purge world.clock).put key (world.clock + ttl.nanos) :=
    same.same.trans put
  have inRange : later.CanMark ttl := by
    rw [World.CanMark, now, dated]
    rfl
  obtain ⟨fresh, last, again⟩ := markIfAbsent_run mode key clear inRange
  refine ⟨fresh, last, again, ?_⟩
  cases fresh with
  | true =>
      obtain ⟨expired, _⟩ := markIfAbsent_fresh again
      have past := expired (world.clock + ttl.nanos) (by rw [set, ExpiringSet.expiry?_put_self])
      rw [now] at past
      have noTime : ttl.nanos ≤ 0 := Nat.le_of_add_le_add_left past
      simpa using noTime
  | false =>
      have live := markIfAbsent_refused again
      rw [set, now] at live
      simp only [Bool.false_eq_true, false_iff]
      intro noTime
      have past : world.clock + ttl.nanos ≤ world.clock := by
        rw [noTime]
        exact Nat.le_refl _
      exact ExpiringSet.not_has_purge_put past live

end Marking

/-! ## Verifying the same claim -/

namespace Verifier

variable {verifier : Verifier} {world looked verified later : World}

def SpendsSignatures (verifier : Verifier) : Prop :=
  verifier.skip = false ∧ verifier.nonces ≠ none ∧ verifier.nonceTtl.nanos ≠ 0

instance (verifier : Verifier) : Decidable verifier.SpendsSignatures :=
  inferInstanceAs (Decidable (_ ∧ _ ∧ _))

theorem checkNonce_again {signature keyId : String} (checks : verifier.skip = false)
    (run : (verifier.checkNonce signature keyId).outcome.run looked = some (.ok (), verified))
    (same : verified.Unmarked .nonces later) (clear : later.Clear Marks.nonces.sites) :
    ∃ checked last, (verifier.checkNonce signature keyId).outcome.run later =
        some (checked, last) ∧
      (verifier.SpendsSignatures → checked = .error .signatureReplayed) ∧
      (¬verifier.SpendsSignatures → checked = .ok ()) := by
  rw [checkNonce_outcome] at run ⊢
  cases nonces : verifier.nonces with
  | none => exact ⟨.ok (), later, rfl, fun spends => absurd nonces spends.2.1, fun _ => rfl⟩
  | some mode =>
      rw [nonces] at run
      dsimp only at run ⊢
      rw [Program.run_bind] at run
      obtain ⟨⟨marked, middle⟩, marks, run⟩ := Option.bind_eq_some_iff.mp run
      match marked with
      | .error error => cases run
      | .ok false => cases run
      | .ok true =>
          cases run
          obtain ⟨fresh, last, again, isFresh⟩ := markIfAbsent_again marks same clear
          rw [Program.run_bind, again]
          cases fresh with
          | true =>
              have noTime : verifier.nonceTtl.nanos = 0 := isFresh.mp rfl
              exact ⟨.ok (), last, rfl, fun spends => absurd noTime spends.2.2, fun _ => rfl⟩
          | false =>
              have someTime : verifier.nonceTtl.nanos ≠ 0 := fun noTime => by
                cases isFresh.mpr noTime
              have spends : verifier.SpendsSignatures :=
                ⟨checks, by simp [nonces], someTime⟩
              exact ⟨.error .signatureReplayed, last, rfl, fun _ => rfl,
                fun spendsNone => absurd spends spendsNone⟩

theorem checkNonce_beside {signature keyId : String}
    {checked : Except VerificationError Unit}
    (run : (verifier.checkNonce signature keyId).outcome.run looked = some (checked, verified)) :
    looked.SameKeys verified ∧ looked.Unmarked .fingerprints verified := by
  have noFetch : (verifier.checkNonce signature keyId).outcome.Uses
      fun request => ∀ seenAt, request ≠ .refreshKeys seenAt := by
    refine checkNonce_uses (fun mode _ nonce => ?_) signature keyId
    refine markIfAbsent_uses ?_ ?_ ?_ mode <;> rintro _ ⟨⟩
  have elsewhere : (verifier.checkNonce signature keyId).outcome.Uses
      fun request => request.touches .fingerprints = false := by
    refine checkNonce_uses (fun mode _ nonce => ?_) signature keyId
    refine markIfAbsent_uses ?_ ?_ ?_ mode <;> rfl
  exact ⟨noFetch.run_preserves World.SameKeys.refl World.SameKeys.trans
      World.perform_sameKeys run,
    elsewhere.run_preserves World.Unmarked.refl World.Unmarked.trans
      World.perform_unmarked run⟩

theorem verify_again {now : Int} {claim : SignatureClaim} {body : Bytes} {value : Verified}
    (run : (verifier.verify now claim body).outcome.run world = some (.ok value, verified))
    (poised : verified.Poised later) (clear : later.Clear Marks.nonces.sites) :
    ∃ verdict last, (verifier.verify now claim body).outcome.run later =
        some (verdict, last) ∧
      (verifier.SpendsSignatures → verdict = .error .signatureReplayed) ∧
      (¬verifier.SpendsSignatures → verdict = .ok value) := by
  cases examines_of_verify_run run trivial with
  | unchecked skips same ended =>
      refine ⟨.ok value, later, Examines.run (.unchecked skips rfl ended), ?_, fun _ => rfl⟩
      intro spends
      rw [spends.1] at skips
      cases skips
  | signed checks signature keyId header key looked checked presents looks verifies checksNonce
      ended =>
      cases checked with
      | error error => cases ended
      | ok done =>
          obtain ⟨keys, clock, _⟩ := checkNonce_beside checksNonce
          obtain ⟨lookedAgain, looksAgain⟩ := lookUpKey_again looks
            (poised.nonces.clock.trans clock) (keys.trans poised.keys)
          obtain ⟨_, plans, _⟩ := lookUpKey_run looksAgain
          have unmarked : later.Unmarked .nonces lookedAgain :=
            lookUpKey_unmarked looksAgain
          have stillClear : lookedAgain.Clear Marks.nonces.sites := by
            refine clear.mono fun site _ => ?_
            rw [plans]
          obtain ⟨checkedAgain, last, checksAgain, spent, unspent⟩ :=
            checkNonce_again checks checksNonce (poised.nonces.trans unmarked) stillClear
          refine ⟨_, last, Examines.run (.signed checks signature keyId header key lookedAgain
            checkedAgain presents looksAgain verifies checksAgain rfl), ?_, ?_⟩
          · intro spends
            rw [spent spends]
            rfl
          · intro spendsNone
            rw [unspent spendsNone, ended]

end Verifier

end WebhookRelay
