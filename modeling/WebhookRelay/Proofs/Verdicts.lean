import WebhookRelay.Proofs.Expiry
import WebhookRelay.Proofs.Liveness

/-!
# Which requests are verified

Where signatures are checked, a request is verified exactly if it presents a recent signature, a
key that the cache yields verifies it, and its nonce can be marked as new where signatures may
be used once only.  A request that presents no recent signature makes no call at all, so it
causes no fetch.  Nonces become live one at a time, and only for a signature that is verified.
-/

set_option autoImplicit false

namespace WebhookRelay

/-! ## The key that a cache yields -/

/-- A key is in the set that is cached and not expired, or it is published when a fetch is
due. -/
inductive World.Yields (world : World) (keyId : String) (key : VerifyingKey) : Prop where
  | held {entry : CachedKeys} (cached : world.keys.cached = some entry)
      (current : world.keys.isExpired world.clock entry = false)
      (known : entry.keys.find? keyId = some key)
  | fetched {published : JwkSet} (due : world.keys.FetchDue world.clock keyId)
      (answered : world.source.fetch world.network = .ok published)
      (known : (KeySet.ofJwks published).find? keyId = some key)

theorem World.yields_iff {world : World} {keyId : String} {key : VerifyingKey} :
    world.Yields keyId key ↔ world.Offers keyId key := by
  constructor
  · intro yields
    cases yields with
    | held cached current known =>
        exact World.offers_of_found (KeyCache.read_of_known cached current known)
    | fetched due answered known =>
        obtain ⟨seenAt, read⟩ := KeyCache.read_of_fetchDue due
        exact World.offers_of_published read answered known
  · rintro ⟨looked, run⟩
    have reading : world.perform (.readKeys keyId) =
        some (world.keys.read world.clock keyId, world) := rfl
    cases read : world.keys.read world.clock keyId with
    | found other =>
        rw [lookUpKey_outcome, Program.run_call reading, read] at run
        cases run
        obtain ⟨entry, cached, current, known⟩ := KeyCache.read_found read
        exact .held cached current known
    | absent =>
        rw [lookUpKey_outcome, Program.run_call reading, read] at run
        cases run
    | stale seenAt =>
        obtain ⟨found, _⟩ | ⟨published, answered, known, _⟩ := lookUpKey_found run
        · rw [read] at found
          cases found
        · exact .fetched (KeyCache.fetchDue_of_read read) answered known

/-! ## The nonce -/

namespace Verifier

variable {verifier : Verifier} {world looked after : World} {signature keyId : String}

/-- A nonce may be used: nobody counts, or it is marked as new. -/
def Unspent (verifier : Verifier) (world : World) (signature keyId : String) : Prop :=
  ∀ mode, verifier.nonces = some mode →
    world.MarksNew .nonces mode (signatureNonce signature keyId) verifier.nonceTtl

theorem unspent_of_lookUp {found : Except VerificationError VerifyingKey}
    (run : (lookUpKey keyId).outcome.run world = some (found, looked)) :
    verifier.Unspent looked signature keyId ↔ verifier.Unspent world signature keyId := by
  obtain ⟨_, plans, _⟩ := lookUpKey_run run
  exact forall₂_congr fun mode _ => World.MarksNew.congr (lookUpKey_unmarked run) plans

theorem unique_of_lookUp (unique : world.nonces.Unique)
    {found : Except VerificationError VerifyingKey}
    (run : (lookUpKey keyId).outcome.run world = some (found, looked)) :
    looked.nonces.Unique := by
  have unmarked : world.Unmarked .nonces looked := lookUpKey_unmarked run
  have same : looked.nonces = world.nonces := unmarked.same
  rw [same]
  exact unique

/-- A nonce that may be used is the only one that becomes live, and any other check leaves the
live nonces as they are. -/
theorem checkNonce_settles (unique : world.nonces.Unique)
    {checked : Except VerificationError Unit}
    (run : (verifier.checkNonce signature keyId).outcome.run world = some (checked, after)) :
    (checked = .ok () → verifier.Unspent world signature keyId) ∧
      (World.LiveAlike .nonces world after ∨
        verifier.nonces ≠ none ∧
          world.nonces.contains world.clock (signatureNonce signature keyId) = false ∧
          World.OneMoreLive .nonces (signatureNonce signature keyId) verifier.nonceTtl world
            after) := by
  rw [checkNonce_outcome] at run
  cases nonces : verifier.nonces with
  | none =>
      rw [nonces] at run
      cases run
      refine ⟨fun _ mode some => ?_, Or.inl (World.Unmarked.refl _).liveAlike⟩
      rw [nonces] at some
      cases some
  | some mode =>
      rw [nonces] at run
      dsimp only at run
      rw [Program.run_bind] at run
      obtain ⟨⟨marked, middle⟩, marks, goesOn⟩ := Option.bind_eq_some_iff.mp run
      have same : after = middle := by
        match marked with
        | .error error => cases goesOn; rfl
        | .ok true => cases goesOn; rfl
        | .ok false => cases goesOn; rfl
      subst same
      have unique : (world.marks .nonces).Unique := unique
      rcases markIfAbsent_settles unique marks with ⟨new, rfl, oneMore⟩ | ⟨_, refused, alike⟩
      · refine ⟨fun _ other some => ?_, Or.inr ⟨nofun, new.absent, oneMore⟩⟩
        rw [nonces] at some
        cases some
        exact new
      · refine ⟨?_, Or.inl alike⟩
        rintro rfl
        match marked with
        | .error error => cases goesOn
        | .ok false => cases goesOn
        | .ok true => exact absurd rfl refused

theorem checkNonce_unspent (unique : world.nonces.Unique)
    (unspent : verifier.Unspent world signature keyId) :
    ∃ after, (verifier.checkNonce signature keyId).outcome.run world = some (.ok (), after) := by
  rw [checkNonce_outcome]
  cases nonces : verifier.nonces with
  | none => exact ⟨world, rfl⟩
  | some mode =>
      have unique : (world.marks .nonces).Unique := unique
      obtain ⟨after, marks⟩ := markIfAbsent_new unique (unspent mode nonces)
      refine ⟨after, ?_⟩
      dsimp only
      rw [Program.run_bind, marks]
      rfl

/-! ## The verdict -/

/-- What makes a request authentic: it presents a recent signature, and a key that the cache
yields verifies it. -/
structure Signs (verifier : Verifier) (world : World) (now : Int) (claim : SignatureClaim)
    (body : Bytes) (signature keyId : String) (header : SignatureHeader)
    (key : VerifyingKey) : Prop where
  presents : verifier.Presents now claim signature keyId header
  yields : world.Yields keyId key
  verifies : key.verifies (signedMessage header.timestamp body) header.signature = true

variable {now : Int} {claim : SignatureClaim} {body : Bytes}

theorem checks_of_accepted (checks : verifier.skip = false) {verified : Verified}
    (run : (verifier.verify now claim body).outcome.run world = some (.ok verified, after)) :
    ∃ signature keyId header key looked,
      verifier.Presents now claim signature keyId header ∧
      (lookUpKey keyId).outcome.run world = some (.ok key, looked) ∧
      key.verifies (signedMessage header.timestamp body) header.signature = true ∧
      (verifier.checkNonce signature keyId).outcome.run looked = some (.ok (), after) ∧
      verified = signedBy keyId header := by
  cases examines_of_verify_run run trivial with
  | unchecked skips same ended =>
      rw [checks] at skips
      cases skips
  | signed checks signature keyId header key looked checked presents looks verifies checksNonce
      ended =>
      cases checked with
      | error error => cases ended
      | ok done =>
          cases ended
          exact ⟨signature, keyId, header, key, looked, presents, looks, verifies, checksNonce, rfl⟩

theorem verify_accepts (checks : verifier.skip = false) (unique : world.nonces.Unique) :
    (∃ verified after, (verifier.verify now claim body).outcome.run world =
      some (.ok verified, after)) ↔
      ∃ signature keyId header key,
        verifier.Signs world now claim body signature keyId header key ∧
          verifier.Unspent world signature keyId := by
  constructor
  · rintro ⟨verified, after, run⟩
    obtain ⟨signature, keyId, header, key, looked, presents, looks, verifies, checksNonce, _⟩ :=
      checks_of_accepted checks run
    obtain ⟨unspent, _⟩ := checkNonce_settles (unique_of_lookUp unique looks) checksNonce
    exact ⟨signature, keyId, header, key,
      ⟨presents, World.yields_iff.mpr ⟨looked, looks⟩, verifies⟩,
      (unspent_of_lookUp looks).mp (unspent rfl)⟩
  · rintro ⟨signature, keyId, header, key, ⟨presents, yields, verifies⟩, unspent⟩
    obtain ⟨looked, looks⟩ := World.yields_iff.mp yields
    have lookedUnique := unique_of_lookUp unique looks
    obtain ⟨after, checksNonce⟩ :=
      checkNonce_unspent lookedUnique ((unspent_of_lookUp looks).mpr unspent)
    exact ⟨_, after, Examines.run (.signed checks signature keyId header key looked (.ok ())
      presents looks verifies checksNonce rfl)⟩

/-- Nonces become live one at a time, and only where a signature is verified. -/
theorem verify_spends (checks : verifier.skip = false) (unique : world.nonces.Unique)
    {verdict : Except VerificationError Verified}
    (run : (verifier.verify now claim body).outcome.run world = some (verdict, after)) :
    World.LiveAlike .nonces world after ∨
      ∃ signature keyId header key,
        verifier.Signs world now claim body signature keyId header key ∧
          verifier.nonces ≠ none ∧
          world.nonces.contains world.clock (signatureNonce signature keyId) = false ∧
          World.OneMoreLive .nonces (signatureNonce signature keyId) verifier.nonceTtl world
            after := by
  by_cases presented : ∃ signature keyId header,
    verifier.Presents now claim signature keyId header
  case neg =>
    simp only [not_exists] at presented
    obtain ⟨error, _, ended⟩ := verify_outcome_unpresented checks presented body
    rw [ended] at run
    cases run
    exact Or.inl (World.Unmarked.refl _).liveAlike
  obtain ⟨signature, keyId, header, presents⟩ := presented
  rw [verify_outcome checks presents, Program.andThen, Program.run_bind] at run
  obtain ⟨⟨found, looked⟩, looks, goesOn⟩ := Option.bind_eq_some_iff.mp run
  have unmarked : world.Unmarked .nonces looked := lookUpKey_unmarked looks
  cases found with
  | error error =>
      cases goesOn
      exact Or.inl unmarked.liveAlike
  | ok key =>
      dsimp only at goesOn
      split at goesOn
      case isFalse =>
        cases goesOn
        exact Or.inl unmarked.liveAlike
      rename_i verifies
      rw [Program.andThen, Program.run_bind] at goesOn
      obtain ⟨⟨checked, last⟩, checksNonce, ends⟩ := Option.bind_eq_some_iff.mp goesOn
      have same : after = last := by
        cases checked <;> (cases ends; rfl)
      subst same
      obtain ⟨_, alike | ⟨counts, absent, oneMore⟩⟩ :=
        checkNonce_settles (unique_of_lookUp unique looks) checksNonce
      · exact Or.inl (unmarked.liveAlike.trans alike)
      · refine Or.inr ⟨signature, keyId, header, key,
          ⟨presents, World.yields_iff.mpr ⟨looked, looks⟩, verifies⟩, counts, ?_,
          unmarked.oneMoreLive oneMore⟩
        have same : looked.nonces = world.nonces := unmarked.same
        rw [← unmarked.clock, ← same]
        exact absent

end Verifier

/-- Where signatures are checked, a request is accepted exactly if there is a source of keys,
both headers are present, the signature header can be read, the signature is recent, a key that
the cache yields verifies it over its time and the body, and its nonce is marked as new where
nonces count.  A request that does not present a recent signature makes no call, so that it
cannot cause a fetch.  The same nonces are live after a request as before, unless its signature
is verified and its nonce was not live: then that nonce is, and no other. -/
theorem verification_accepts_exactly_fresh_authentic_requests {verifier : Verifier}
    (checks : verifier.skip = false) {world : World} (unique : world.nonces.Unique) (now : Int)
    (claim : SignatureClaim) (body : Bytes) :
    ((∃ verified after, (verifier.verify now claim body).outcome.run world =
        some (.ok verified, after)) ↔
      ∃ signature keyId header key, verifier.hasKeys = true ∧
        claim.signature = some signature ∧ claim.keyId = some keyId ∧
        SignatureHeader.parse signature = .ok header ∧
        (now - header.timestamp).natAbs ≤ verifier.tolerance.seconds ∧
        world.Yields keyId key ∧
        key.verifies (signedMessage header.timestamp body) header.signature = true ∧
        ∀ mode, verifier.nonces = some mode →
          world.MarksNew .nonces mode (signatureNonce signature keyId) verifier.nonceTtl) ∧
    ((∀ signature keyId header, ¬verifier.Presents now claim signature keyId header) →
      ∃ error, (verifier.verify now claim body).outcome = .done (.error error)) ∧
    ∀ verdict after, (verifier.verify now claim body).outcome.run world =
        some (verdict, after) →
      World.LiveAlike .nonces world after ∨
      ∃ signature keyId header key,
        verifier.Presents now claim signature keyId header ∧ world.Yields keyId key ∧
        key.verifies (signedMessage header.timestamp body) header.signature = true ∧
        verifier.nonces ≠ none ∧
        world.nonces.contains world.clock (signatureNonce signature keyId) = false ∧
        World.OneMoreLive .nonces (signatureNonce signature keyId) verifier.nonceTtl world
          after := by
  refine ⟨?_, ?_, ?_⟩
  · rw [Verifier.verify_accepts checks unique]
    constructor
    · rintro ⟨signature, keyId, header, key, ⟨presents, yields, verifies⟩, unspent⟩
      exact ⟨signature, keyId, header, key, presents.hasKeys, presents.signed, presents.keyed,
        presents.parsed, presents.recent, yields, verifies, unspent⟩
    · rintro ⟨signature, keyId, header, key, hasKeys, signed, keyed, parsed, recent, yields,
        verifies, unspent⟩
      exact ⟨signature, keyId, header, key,
        ⟨⟨hasKeys, signed, keyed, parsed, recent⟩, yields, verifies⟩, unspent⟩
  · intro unpresented
    obtain ⟨error, _, ended⟩ := Verifier.verify_outcome_unpresented checks unpresented body
    exact ⟨error, ended⟩
  · intro verdict after run
    rcases Verifier.verify_spends checks unique run with
      alike | ⟨signature, keyId, header, key, ⟨presents, yields, verifies⟩, spends⟩
    · exact Or.inl alike
    · exact Or.inr ⟨signature, keyId, header, key, presents, yields, verifies, spends⟩

namespace Sample

def strictVerifier : Verifier := { nonces := some .atomic }

theorem signed_request_is_accepted_once :
    strictVerifier.skip = false ∧ keyedWorld.nonces.Unique ∧
      ∃ verified after, (strictVerifier.verify signedRequest.now.seconds signedRequest.claim
        signedRequest.body).outcome.run keyedWorld = some (.ok verified, after) := by
  have checks : strictVerifier.skip = false := rfl
  have unique : keyedWorld.nonces.Unique := List.nodup_nil
  refine ⟨checks, unique, ?_⟩
  obtain ⟨signature, header, key, presents, known, verifies⟩ :=
    signedRequest_presents strictVerifier rfl
  have due : keyedWorld.keys.FetchDue keyedWorld.clock "k" := by
    intro entry cached
    cases cached
  obtain ⟨accepts, _⟩ := verification_accepts_exactly_fresh_authentic_requests checks unique
    signedRequest.now.seconds signedRequest.claim signedRequest.body
  refine accepts.mpr ⟨signature, "k", header, key, presents.hasKeys, presents.signed,
    presents.keyed, presents.parsed, presents.recent, .fetched due rfl known, verifies, ?_⟩
  intro mode counts
  cases counts
  have admits : keyedWorld.Admits World.storeError? (.tryMark .nonces) := by decide
  exact ⟨rfl, by decide, admits⟩

end Sample

end WebhookRelay
