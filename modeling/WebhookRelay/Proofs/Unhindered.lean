import WebhookRelay.Proofs.Asides
import WebhookRelay.Proofs.Stores

/-!
# Calls that are let through

Where the next call of a method is not refused, it has an answer, and the answer is not
a refusal.  An authentic request whose calls are let through is verified, or its
signature is found to have been used before; no other verdict is possible.
-/

set_option autoImplicit false

namespace WebhookRelay

/-! ## Runs -/

namespace Program

variable {α β : Type} {world after : World}

theorem run_bind (program : Program α) (next : α → Program β) (world : World) :
    (program.bind next).run world =
      (program.run world).bind fun (value, world) => (next value).run world := by
  induction program generalizing world with
  | done value => rfl
  | call request rest ih =>
      simp only [call_bind, run]
      cases world.perform request with
      | none => rfl
      | some performed => exact ih performed.1 performed.2

theorem run_call {request : Call} {next : request.Answer → Program α}
    {answer : request.Answer} (performed : world.perform request = some (answer, after)) :
    (call request next).run world = (next answer).run after := by
  rw [run, performed]

theorem run_andThen {ε : Type} {program : Program (Except ε α)}
    {next : α → Program (Except ε β)} {value : α}
    (run : program.run world = some (.ok value, after)) :
    (program.andThen next).run world = (next value).run after := by
  rw [andThen, run_bind, run]
  rfl

end Program

/-! ## Methods that do not refuse -/

namespace World

variable {world after : World} {sites : List Site}

def LetsThrough (world : World) (site : Site) : Prop :=
  (world.takeRefusal site).1 = none

instance (world : World) (site : Site) : Decidable (world.LetsThrough site) :=
  inferInstanceAs (Decidable (_ = none))

def Clear (world : World) (sites : List Site) : Prop :=
  ∀ site ∈ sites, world.LetsThrough site

instance (world : World) (sites : List Site) : Decidable (world.Clear sites) :=
  inferInstanceAs (Decidable (∀ site ∈ sites, world.LetsThrough site))

theorem LetsThrough.mono {site : Site} (through : world.LetsThrough site)
    (same : after.refusals site = world.refusals site) : after.LetsThrough site := by
  unfold LetsThrough takeRefusal at *
  rw [same]
  split at through
  · rfl
  · exact through

theorem Clear.mono (clear : world.Clear sites)
    (same : ∀ site ∈ sites, after.refusals site = world.refusals site) : after.Clear sites :=
  fun site member => (clear site member).mono (same site member)

theorem Clear.subset {fewer : List Site} (clear : world.Clear sites) (subset : fewer ⊆ sites) :
    world.Clear fewer :=
  fun site member => clear site (subset member)

/-- A call uses up what is decided about its own method only. -/
theorem Clear.performed (clear : world.Clear sites) {request : Call}
    {answer : request.Answer} (performed : world.perform request = some (answer, after))
    (elsewhere : ∀ site ∈ sites, request.site? ≠ some site) : after.Clear sites :=
  clear.mono fun site member => perform_refusals_other performed (elsewhere site member)

theorem takeRefusal_clock (world : World) (site : Site) :
    (world.takeRefusal site).2.clock = world.clock :=
  (differs_takeRefusal none world site).clock

theorem unlessRefused_through {ε α : Type} {site : Site} (through : world.LetsThrough site)
    (errorOf : Refusal → Option ε) (effect : World → Option (Except ε α × World)) :
    unlessRefused site errorOf world effect = effect (world.takeRefusal site).2 := by
  simp only [unlessRefused]
  rw [through]
  rfl

section Admitting

variable {ε α : Type} {errorOf : Refusal → Option ε} {site : Site}

def Admits (world : World) (errorOf : Refusal → Option ε) (site : Site) : Prop :=
  (world.takeRefusal site).1.bind errorOf = none

instance [DecidableEq ε] (world : World) (errorOf : Refusal → Option ε) (site : Site) :
    Decidable (world.Admits errorOf site) :=
  inferInstanceAs (Decidable (_ = none))

theorem Admits.congr (same : after.refusals site = world.refusals site) :
    after.Admits errorOf site ↔ world.Admits errorOf site := by
  unfold Admits takeRefusal
  rw [same]
  split <;> exact Iff.rfl

theorem Admits.taken {other : Site} (distinct : site ≠ other) :
    (world.takeRefusal other).2.Admits errorOf site ↔ world.Admits errorOf site := by
  apply Admits.congr
  rw [takeRefusal_refusals, if_neg distinct]

theorem unlessRefused_of_admits (admits : world.Admits errorOf site)
    (effect : World → Option (Except ε α × World)) :
    unlessRefused site errorOf world effect = effect (world.takeRefusal site).2 := by
  unfold Admits at admits
  simp only [unlessRefused, admits]

theorem unlessRefused_of_not_admits (refused : ¬world.Admits errorOf site)
    (effect : World → Option (Except ε α × World)) :
    ∃ error, unlessRefused site errorOf world effect =
      some (.error error, (world.takeRefusal site).2) := by
  obtain ⟨error, refusal⟩ := Option.ne_none_iff_exists'.mp refused
  refine ⟨error, ?_⟩
  simp only [unlessRefused, refusal]

theorem admits_of_answered {effect : World → Option (Except ε α × World)} {value : α}
    (performed : unlessRefused site errorOf world effect = some (.ok value, after)) :
    world.Admits errorOf site := by
  by_contra refused
  obtain ⟨error, failed⟩ := unlessRefused_of_not_admits refused effect
  rw [failed] at performed
  cases performed

end Admitting

theorem findEvent_through (through : world.LetsThrough .findEvent) (eventId : String) :
    ∃ after, world.perform (.findEvent eventId) =
      some (.ok (world.events.find? eventId), after) := by
  refine ⟨(world.takeRefusal .findEvent).2, ?_⟩
  rw [perform, unlessRefused_through through, reading,
    (world.takeRefusal_sameStores _).events]

theorem jobsByEvent_through (through : world.LetsThrough .jobsByEvent) (eventId : String) :
    ∃ after, world.perform (.jobsByEvent eventId) =
      some (.ok (world.jobs.byEventId eventId), after) := by
  refine ⟨(world.takeRefusal .jobsByEvent).2, ?_⟩
  rw [perform, unlessRefused_through through, reading, (world.takeRefusal_sameStores _).jobs]

theorem createJob_through (through : world.LetsThrough .createJob) {job : Job}
    (fresh : world.jobs.find? job.id = none) :
    ∃ after, world.perform (.createJob job) = some (.ok (), after) := by
  rw [perform, unlessRefused_through through, changing, JobStore.create,
    (world.takeRefusal_sameStores _).jobs, fresh]
  exact ⟨_, rfl⟩

theorem markProcessed_through (through : world.LetsThrough .markProcessed) {eventId : String}
    (known : world.events.Knows eventId) (time : Timestamp) :
    ∃ after, world.perform (.markProcessed eventId time) = some (.ok (), after) := by
  have found : (world.events.find? eventId).isSome = true := known
  rw [perform, unlessRefused_through through, changing, EventStore.markProcessed,
    (world.takeRefusal_sameStores _).events, if_pos found]
  exact ⟨_, rfl⟩

def CanMark (world : World) (ttl : Duration) : Prop :=
  (world.clock.plus? ttl).isSome = true

instance (world : World) (ttl : Duration) : Decidable (world.CanMark ttl) :=
  inferInstanceAs (Decidable (_ = true))

section Marks

variable {marks : Marks} {ttl : Duration}

theorem seen_through (through : world.LetsThrough (.seen marks)) (key : String) :
    ∃ found after, world.perform (.seen marks key) = some (.ok found, after) ∧
      after.clock = world.clock := by
  rw [perform, unlessRefused_through through, reading]
  exact ⟨_, _, rfl, world.takeRefusal_clock _⟩

theorem mark_through (through : world.LetsThrough (.mark marks)) (inRange : world.CanMark ttl)
    (key : String) : ∃ after, world.perform (.mark marks key ttl) = some (.ok (), after) := by
  obtain ⟨expiresAt, dated⟩ := Option.isSome_iff_exists.mp inRange
  rw [perform, unlessRefused_through through, markKey, ExpiringSet.insert?,
    takeRefusal_clock, dated]
  exact ⟨_, rfl⟩

theorem tryMark_through (through : world.LetsThrough (.tryMark marks))
    (inRange : world.CanMark ttl) (key : String) :
    ∃ fresh after, world.perform (.tryMark marks key ttl) = some (.ok fresh, after) := by
  obtain ⟨expiresAt, dated⟩ := Option.isSome_iff_exists.mp inRange
  rw [perform, unlessRefused_through through, tryMarkKey, takeRefusal_clock]
  simp only [ExpiringSet.insertIfAbsent?, dated]
  split
  · exact ⟨false, _, rfl⟩
  · exact ⟨true, _, rfl⟩

end Marks

end World

/-! ## Verifying without refusals -/

section Verifying

variable {world after : World}

def Marks.sites (marks : Marks) : List Site :=
  [.seen marks, .mark marks, .tryMark marks]

theorem markIfAbsent_run {marks : Marks} (mode : MarkMode) (key : String) {ttl : Duration}
    (clear : world.Clear marks.sites) (inRange : world.CanMark ttl) :
    ∃ fresh after, (markIfAbsent marks mode key ttl).outcome.run world =
      some (.ok fresh, after) := by
  rw [markIfAbsent_outcome]
  cases mode with
  | atomic =>
      obtain ⟨fresh, after, performed⟩ :=
        World.tryMark_through (clear (.tryMark marks) (by simp [Marks.sites])) inRange key
      exact ⟨fresh, after, Program.run_call performed⟩
  | stepwise =>
      obtain ⟨found, looked, performed, clock⟩ :=
        World.seen_through (clear (.seen marks) (by simp [Marks.sites])) key
      cases found with
      | true => exact ⟨false, looked, Program.run_call performed⟩
      | false =>
          have through : looked.LetsThrough (.mark marks) :=
            (clear (.mark marks) (by simp [Marks.sites])).mono
              (World.perform_refusals_other performed nofun)
          have stillInRange : looked.CanMark ttl := by
            rw [World.CanMark, clock]
            exact inRange
          obtain ⟨after, marked⟩ := World.mark_through through stillInRange key
          exact ⟨true, after, (Program.run_call performed).trans (Program.run_call marked)⟩

theorem World.refreshKeys_unmoved (seenAt : Option Instant) (world : World) :
    (world.refreshKeys seenAt).2.clock = world.clock ∧
      (world.refreshKeys seenAt).2.refusals = world.refusals := by
  unfold refreshKeys
  split
  · exact ⟨rfl, rfl⟩
  · simp only [fetchKeys]
    split <;> exact ⟨rfl, rfl⟩

/-- Looking up a key lets no time pass, uses up nothing that is decided about calls, and
knows nothing of nonces. -/
theorem lookUpKey_run {keyId : String} {found : Except VerificationError VerifyingKey}
    (run : (lookUpKey keyId).outcome.run world = some (found, after)) :
    after.clock = world.clock ∧ after.refusals = world.refusals ∧
      found ≠ .error .signatureReplayed := by
  rw [lookUpKey_outcome] at run
  have performed : world.perform (.readKeys keyId) =
      some (world.keys.read world.clock keyId, world) := rfl
  rw [Program.run_call performed] at run
  split at run
  · cases run
    exact ⟨rfl, rfl, nofun⟩
  · cases run
    exact ⟨rfl, rfl, nofun⟩
  · rename_i seenAt _
    have refreshed : world.perform (.refreshKeys seenAt) =
        some (world.refreshKeys seenAt) := rfl
    rw [Program.run_call refreshed] at run
    obtain ⟨clock, plans⟩ := world.refreshKeys_unmoved seenAt
    split at run
    · rename_i error failed
      cases run
      have refused : world.perform (.refreshKeys seenAt) =
          some (.error error, (world.refreshKeys seenAt).2) :=
        refreshed.trans (congrArg some (Prod.ext failed rfl))
      obtain ⟨reason, rfl⟩ := World.perform_refreshKeys_error refused
      exact ⟨clock, plans, nofun⟩
    · split at run
      · cases run
        exact ⟨clock, plans, nofun⟩
      · cases run
        exact ⟨clock, plans, nofun⟩

def World.Offers (world : World) (keyId : String) (key : VerifyingKey) : Prop :=
  ∃ after, (lookUpKey keyId).outcome.run world = some (.ok key, after)

namespace Verifier

/-- A claim about a body is authentic: nothing is checked, or its signature is recent
and verified by the key that is looked up for it. -/
inductive Trusts (verifier : Verifier) (world : World) (now : Int) (claim : SignatureClaim)
    (body : Bytes) : Prop where
  | unchecked (skips : verifier.skip = true)
  | signed (checks : verifier.skip = false) (signature keyId : String)
      (header : SignatureHeader) (key : VerifyingKey)
      (presents : verifier.Presents now claim signature keyId header)
      (offers : world.Offers keyId key)
      (verifies : key.verifies (signedMessage header.timestamp body) header.signature = true)

/-- What can be said about an authentic request: it is verified, or its signature was
used before. -/
def IsAuthentic : Except VerificationError Verified → Prop
  | .ok _ => True
  | .error error => error = .signatureReplayed

instance : DecidablePred IsAuthentic
  | .ok _ => isTrue trivial
  | .error error => inferInstanceAs (Decidable (error = .signatureReplayed))

variable {verifier : Verifier}

theorem checkNonce_run (signature keyId : String) (clear : world.Clear Marks.nonces.sites)
    (inRange : verifier.nonces ≠ none → world.CanMark verifier.nonceTtl) :
    ∃ checked after, (verifier.checkNonce signature keyId).outcome.run world =
        some (checked, after) ∧
      (checked = .ok () ∨ checked = .error .signatureReplayed) := by
  rw [checkNonce_outcome]
  cases nonces : verifier.nonces with
  | none => exact ⟨.ok (), world, rfl, Or.inl rfl⟩
  | some mode =>
      have canMark := inRange (by simp [nonces])
      obtain ⟨fresh, after, run⟩ :=
        markIfAbsent_run mode (signatureNonce signature keyId) clear canMark
      cases fresh with
      | true =>
          refine ⟨.ok (), after, ?_, Or.inl rfl⟩
          simp only [Program.run_bind, run]
          rfl
      | false =>
          refine ⟨.error .signatureReplayed, after, ?_, Or.inr rfl⟩
          simp only [Program.run_bind, run]
          rfl

def signedBy (keyId : String) (header : SignatureHeader) : Verified :=
  { keyId := some keyId, timestamp := some header.timestamp, skipped := false }

/-- How a claim about a body comes to be found authentic: nothing is checked, or a key is
looked up, it verifies the signature, and the check of the nonce has the last word. -/
inductive Examines (verifier : Verifier) (world : World) (now : Int) (claim : SignatureClaim)
    (body : Bytes) (verdict : Except VerificationError Verified) (after : World) : Prop where
  | unchecked (skips : verifier.skip = true) (same : after = world)
      (ended : verdict = .ok { keyId := claim.keyId, timestamp := none, skipped := true })
  | signed (checks : verifier.skip = false) (signature keyId : String)
      (header : SignatureHeader) (key : VerifyingKey) (looked : World)
      (checked : Except VerificationError Unit)
      (presents : verifier.Presents now claim signature keyId header)
      (looks : (lookUpKey keyId).outcome.run world = some (.ok key, looked))
      (verifies : key.verifies (signedMessage header.timestamp body) header.signature = true)
      (checksNonce : (verifier.checkNonce signature keyId).outcome.run looked =
        some (checked, after))
      (ended : verdict = checked.map fun _ => signedBy keyId header)

section Examining

variable {now : Int} {claim : SignatureClaim} {body : Bytes}
  {verdict : Except VerificationError Verified}

theorem Examines.run (examines : verifier.Examines world now claim body verdict after) :
    (verifier.verify now claim body).outcome.run world = some (verdict, after) := by
  cases examines with
  | unchecked skips same ended =>
      rw [verify_outcome_skipped skips, same, ended]
      rfl
  | signed checks signature keyId header key looked checked presents looks verifies checksNonce
      ended =>
      rw [verify_outcome checks presents, Program.run_andThen looks, if_pos verifies,
        Program.andThen, Program.run_bind, checksNonce, ended]
      cases checked <;> rfl

theorem verify_run (trusts : verifier.Trusts world now claim body)
    (clear : world.Clear Marks.nonces.sites)
    (inRange : verifier.nonces ≠ none → world.CanMark verifier.nonceTtl) :
    ∃ verdict after, (verifier.verify now claim body).outcome.run world =
      some (verdict, after) ∧ IsAuthentic verdict := by
  cases trusts with
  | unchecked skips => exact ⟨_, world, Examines.run (.unchecked skips rfl rfl), trivial⟩
  | signed checks signature keyId header key presents offers verifies =>
      obtain ⟨looked, looks⟩ := offers
      obtain ⟨clock, plans, _⟩ := lookUpKey_run looks
      have stillClear : looked.Clear Marks.nonces.sites := by
        refine clear.mono fun site _ => ?_
        rw [plans]
      have stillInRange : verifier.nonces ≠ none → looked.CanMark verifier.nonceTtl := by
        rw [World.CanMark, clock]
        exact inRange
      obtain ⟨checked, after, checksNonce, ended⟩ :=
        checkNonce_run signature keyId stillClear stillInRange
      refine ⟨_, after, Examines.run (.signed checks signature keyId header key looked checked
        presents looks verifies checksNonce rfl), ?_⟩
      rcases ended with rfl | rfl
      · trivial
      · rfl

theorem examines_of_verify_run
    (run : (verifier.verify now claim body).outcome.run world = some (verdict, after))
    (authentic : IsAuthentic verdict) : verifier.Examines world now claim body verdict after := by
  cases checks : verifier.skip with
  | true =>
      rw [verify_outcome_skipped checks] at run
      cases run
      exact .unchecked checks rfl rfl
  | false =>
      by_cases presented : ∃ signature keyId header,
          verifier.Presents now claim signature keyId header
      · obtain ⟨signature, keyId, header, presents⟩ := presented
        rw [verify_outcome checks presents, Program.andThen, Program.run_bind] at run
        obtain ⟨⟨found, looked⟩, looks, run⟩ := Option.bind_eq_some_iff.mp run
        cases found with
        | error error =>
            obtain ⟨_, _, unlike⟩ := lookUpKey_run looks
            cases run
            exact absurd (congrArg Except.error authentic) unlike
        | ok key =>
            dsimp only at run
            split at run
            · rename_i verifies
              rw [Program.andThen, Program.run_bind] at run
              obtain ⟨⟨checked, last⟩, checksNonce, run⟩ := Option.bind_eq_some_iff.mp run
              cases checked <;> cases run <;>
                exact .signed checks signature keyId header key looked _ presents looks verifies
                  checksNonce rfl
            · cases run
              cases authentic
      · obtain ⟨error, unlike, ended⟩ := verify_outcome_unpresented checks
          (fun signature keyId header presents =>
            presented ⟨signature, keyId, header, presents⟩) body
        rw [ended] at run
        cases run
        exact absurd authentic unlike

theorem trusts_of_verify_run
    (run : (verifier.verify now claim body).outcome.run world = some (verdict, after))
    (authentic : IsAuthentic verdict) : verifier.Trusts world now claim body := by
  cases examines_of_verify_run run authentic with
  | unchecked skips => exact .unchecked skips
  | signed checks signature keyId header key looked _ presents looks verifies =>
      exact .signed checks signature keyId header key presents ⟨looked, looks⟩ verifies

end Examining

end Verifier

end Verifying

end WebhookRelay
