import WebhookRelay.Proofs.Passes

/-!
# Where stored things come from

The contract that all activities share.  Every payload, in the queue or among the dead
letters, and every body that an event remembers was verified, and no event is marked as
processed before it has a job.  Nobody removes a job or an event, so both facts stay
true once they are; that is all that one activity relies on from the others.
-/

set_option autoImplicit false

namespace WebhookRelay

/-! ## Authentic bodies -/

/-- An activity was told a key for a key id: the cache held it, or it was in the set
that a look-up fetched or took over. -/
inductive ToldKey (history : List Occurrence) (who : Nat) (keyId : String)
    (key : VerifyingKey) : Prop where
  | held (answered : .answered who (.readKeys keyId) (.found key) ∈ history)
  | fetched (seenAt : Option Instant) (keys : KeySet)
      (answered : .answered who (.refreshKeys seenAt) (.ok keys) ∈ history)
      (found : keys.find? keyId = some key)

/-- A request carried the body with a well-formed and recent signature header and a key
id, and a key that was looked up for it verifies the signature over time and body. -/
inductive Authentic (tolerance : Duration) (history : List Occurrence) (body : Bytes) :
    Prop where
  | intro (who : Nat) (request : Receiver.Request) (signature keyId : String)
      (header : SignatureHeader) (key : VerifyingKey)
      (begun : .begun who (.receive request) ∈ history)
      (carried : request.body = body)
      (signed : request.claim.signature = some signature)
      (keyed : request.claim.keyId = some keyId)
      (parsed : SignatureHeader.parse signature = .ok header)
      (recent : (request.now.seconds - header.timestamp).natAbs ≤ tolerance.seconds)
      (told : ToldKey history who keyId key)
      (verifies : key.verifies (signedMessage header.timestamp body) header.signature = true)

/-- A body that a verifier lets through: any, or one that is authentic. -/
def Verifier.Admits (verifier : Verifier) (history : List Occurrence) (body : Bytes) : Prop :=
  verifier.skip = true ∨ Authentic verifier.tolerance history body

theorem ToldKey.mono {before after : List Occurrence} {who : Nat} {keyId : String}
    {key : VerifyingKey} (told : ToldKey before who keyId key)
    (earlier : before <+: after) : ToldKey after who keyId key := by
  cases told with
  | held answered => exact .held (earlier.mem answered)
  | fetched seenAt keys answered found => exact .fetched seenAt keys (earlier.mem answered) found

theorem Authentic.mono {tolerance : Duration} {before after : List Occurrence} {body : Bytes}
    (authentic : Authentic tolerance before body) (earlier : before <+: after) :
    Authentic tolerance after body := by
  cases authentic with
  | intro who request signature keyId header key begun carried signed keyed parsed recent told
      verifies =>
      exact .intro who request signature keyId header key (earlier.mem begun) carried signed
        keyed parsed recent (told.mono earlier) verifies

theorem Verifier.Admits.mono {verifier : Verifier} {before after : List Occurrence}
    {body : Bytes} (admits : verifier.Admits before body) (earlier : before <+: after) :
    verifier.Admits after body :=
  admits.imp_right fun authentic => authentic.mono earlier

/-! ## Sound ledgers -/

/-- A refusal that does not pretend that an event is stored. -/
def Refusal.Truthful (refusal : Option Refusal) : Prop :=
  ∀ key, refusal ≠ some (.store (.duplicate key))

namespace Ledger

/-- Where stores may pretend that an event is known, `truthful` is false. -/
structure Sound (verifier : Verifier) (truthful : Prop) (ledger : Ledger) : Prop where
  distinct : ledger.world.jobs.Distinct
  jobs : ∀ job ∈ ledger.world.jobs.jobs,
    verifier.Admits ledger.history (Text.utf8 job.payload)
  entries : ∀ entry ∈ ledger.world.deadLetters.entries,
    verifier.Admits ledger.history (Text.utf8 entry.payload)
  events : ∀ event ∈ ledger.world.events.events, ∃ body,
    event.fingerprint = bodyFingerprint body ∧ verifier.Admits ledger.history body
  processed : ∀ event ∈ ledger.world.events.events, event.status = .processed →
    ledger.world.jobs.HasJob event.eventId
  planned : truthful → ∀ refusal ∈ ledger.world.refusals .createEvent, Refusal.Truthful refusal

/-- More has happened: no job and no event is lost. -/
structure Grows (before after : Ledger) : Prop where
  history : before.history <+: after.history
  jobs : before.world.jobs.identities <+: after.world.jobs.identities
  events : ∀ eventId, before.world.events.Knows eventId → after.world.events.Knows eventId

namespace Grows

theorem refl (ledger : Ledger) : Grows ledger ledger :=
  ⟨List.prefix_rfl, List.prefix_rfl, fun _ known => known⟩

theorem trans {first second third : Ledger} (before : Grows first second)
    (after : Grows second third) : Grows first third :=
  ⟨before.history.trans after.history, before.jobs.trans after.jobs,
    fun eventId known => after.events eventId (before.events eventId known)⟩

theorem hasJob {before after : Ledger} (grows : Grows before after) {eventId : String}
    (hasJob : before.world.jobs.HasJob eventId) : after.world.jobs.HasJob eventId := by
  obtain ⟨identity, member, same⟩ := JobStore.hasJob_iff.mp hasJob
  exact JobStore.hasJob_iff.mpr ⟨identity, grows.jobs.mem member, same⟩

end Grows

/-- What an activity must know before it changes a store, or looks up jobs of an event. -/
def Allows (verifier : Verifier) (ledger : Ledger) : Call → Prop
  | .createEvent event => event.status = .received ∧ ∃ body,
      event.fingerprint = bodyFingerprint body ∧ verifier.Admits ledger.history body
  | .markProcessed eventId _ => ledger.world.jobs.HasJob eventId
  | .createJob job => verifier.Admits ledger.history (Text.utf8 job.payload)
  | .updateJob job => job.identity ∈ ledger.world.jobs.identities
  | .createEntry entry => verifier.Admits ledger.history (Text.utf8 entry.payload)
  | .updateEntry entry => verifier.Admits ledger.history (Text.utf8 entry.payload)
  | .jobsByEvent eventId => ledger.world.events.Knows eventId
  | _ => True

variable {verifier : Verifier} {truthful : Prop} {ledger : Ledger}

theorem allows_aside {request : Call} (aside : request.aside = true) :
    ledger.Allows verifier request := by
  cases request <;> first | exact trivial | cases aside

/-! ## What each call preserves -/

/-- A change outside the three stores keeps a ledger sound if it plans no pretence. -/
theorem Sound.frame (sound : ledger.Sound verifier truthful) {after : Ledger}
    (history : ledger.history <+: after.history) (same : ledger.world.SameStores after.world)
    (planned : truthful → ∀ refusal ∈ after.world.refusals .createEvent,
      Refusal.Truthful refusal) :
    after.Sound verifier truthful ∧ ledger.Grows after := by
  obtain ⟨events, jobs, deadLetters⟩ := same
  refine ⟨⟨?_, ?_, ?_, ?_, ?_, planned⟩, history, ?_, ?_⟩
  · rw [jobs]
    exact sound.distinct
  · rw [jobs]
    exact fun job member => (sound.jobs job member).mono history
  · rw [deadLetters]
    exact fun entry member => (sound.entries entry member).mono history
  · rw [events]
    intro event member
    obtain ⟨body, fingerprint, admits⟩ := sound.events event member
    exact ⟨body, fingerprint, admits.mono history⟩
  · rw [events, jobs]
    exact sound.processed
  · exact jobs ▸ List.prefix_rfl
  · rw [events]
    exact fun _ known => known

section Calls

variable {who : Nat} {world : World}

theorem answered_history (ledger : Ledger) (who : Nat) (request : Call)
    (answer : request.Answer) (world : World) :
    ledger.history <+: (ledger.answered who request answer world).history :=
  List.prefix_append _ _

theorem Sound.stillPlanned (sound : ledger.Sound verifier truthful) {request : Call}
    {answer : request.Answer}
    (performed : ledger.world.perform request = some (answer, world)) (isTruthful : truthful) :
    ∀ refusal ∈ world.refusals .createEvent, Refusal.Truthful refusal := by
  intro refusal member
  have left := World.perform_refusals performed .createEvent
  exact sound.planned isTruthful refusal (left.mem member)

theorem Sound.quiet (sound : ledger.Sound verifier truthful) {request : Call}
    {answer : request.Answer}
    (performed : ledger.world.perform request = some (answer, world))
    (same : ledger.world.SameStores world) :
    (ledger.answered who request answer world).Sound verifier truthful ∧
      ledger.Grows (ledger.answered who request answer world) :=
  sound.frame (ledger.answered_history who request answer world) same
    (sound.stillPlanned performed)

theorem Sound.createEvent (sound : ledger.Sound verifier truthful) {event : Event}
    (allowed : ledger.Allows verifier (.createEvent event)) {answer : Except StoreError Unit}
    (performed : ledger.world.perform (.createEvent event) = some (answer, world)) :
    (ledger.answered who (.createEvent event) answer world).Sound verifier truthful ∧
      ledger.Grows (ledger.answered who (.createEvent event) answer world) := by
  have earlier := ledger.answered_history who (.createEvent event) answer world
  obtain ⟨jobs, deadLetters, ⟨_, events, _⟩ | ⟨events, _⟩⟩ :=
    World.perform_createEvent performed
  · obtain ⟨received, body, fingerprint, admits⟩ := allowed
    have added {other : Event} (member : other ∈ world.events.events) :
        other ∈ ledger.world.events.events ∨ other = event := by
      simpa [events] using member
    refine ⟨⟨?_, ?_, ?_, ?_, ?_, sound.stillPlanned performed⟩, earlier, ?_, ?_⟩
    · exact jobs ▸ sound.distinct
    · exact fun job member => (sound.jobs job (jobs ▸ member)).mono earlier
    · exact fun entry member => (sound.entries entry (deadLetters ▸ member)).mono earlier
    · intro other member
      rcases added member with old | rfl
      · obtain ⟨body, fingerprint, admits⟩ := sound.events other old
        exact ⟨body, fingerprint, admits.mono earlier⟩
      · exact ⟨body, fingerprint, admits.mono earlier⟩
    · intro other member processed
      rcases added member with old | rfl
      · exact jobs ▸ sound.processed other old processed
      · rw [received] at processed
        cases processed
    · exact jobs ▸ List.prefix_rfl
    · exact fun eventId known => events ▸ known.append event
  · exact sound.quiet performed ⟨events, jobs, deadLetters⟩

theorem Sound.markProcessed (sound : ledger.Sound verifier truthful) {eventId : String}
    {time : Timestamp} (allowed : ledger.Allows verifier (.markProcessed eventId time))
    {answer : Except StoreError Unit}
    (performed : ledger.world.perform (.markProcessed eventId time) = some (answer, world)) :
    (ledger.answered who (.markProcessed eventId time) answer world).Sound verifier truthful ∧
      ledger.Grows (ledger.answered who (.markProcessed eventId time) answer world) := by
  have earlier := ledger.answered_history who (.markProcessed eventId time) answer world
  obtain ⟨jobs, deadLetters, ⟨_, _, events⟩ | ⟨_, _, events⟩⟩ :=
    World.perform_markProcessed performed
  · exact sound.quiet performed ⟨events, jobs, deadLetters⟩
  · have marked {other : Event} (member : other ∈ world.events.events) :=
      EventStore.mem_marked.mp (show other ∈ (ledger.world.events.events.map fun event =>
        if event.eventId = eventId then EventStore.processedAt time event else event) by
          rw [events] at member
          exact member)
    refine ⟨⟨?_, ?_, ?_, ?_, ?_, sound.stillPlanned performed⟩, earlier, ?_, ?_⟩
    · exact jobs ▸ sound.distinct
    · exact fun job member => (sound.jobs job (jobs ▸ member)).mono earlier
    · exact fun entry member => (sound.entries entry (deadLetters ▸ member)).mono earlier
    · intro other member
      obtain ⟨old, _⟩ | ⟨original, old, _, rfl⟩ := marked member
      · obtain ⟨body, fingerprint, admits⟩ := sound.events other old
        exact ⟨body, fingerprint, admits.mono earlier⟩
      · obtain ⟨body, fingerprint, admits⟩ := sound.events original old
        exact ⟨body, fingerprint, admits.mono earlier⟩
    · intro other member processed
      obtain ⟨old, _⟩ | ⟨original, old, rfl, rfl⟩ := marked member
      · exact jobs ▸ sound.processed other old processed
      · exact jobs ▸ allowed
    · exact jobs ▸ List.prefix_rfl
    · exact fun known knows => events ▸ knows.marked eventId time

theorem Sound.createJob (sound : ledger.Sound verifier truthful) {job : Job}
    (allowed : ledger.Allows verifier (.createJob job)) {answer : Except QueueError Unit}
    (performed : ledger.world.perform (.createJob job) = some (answer, world)) :
    (ledger.answered who (.createJob job) answer world).Sound verifier truthful ∧
      ledger.Grows (ledger.answered who (.createJob job) answer world) := by
  have earlier := ledger.answered_history who (.createJob job) answer world
  obtain ⟨events, deadLetters, ⟨_, _, jobs⟩ | ⟨_, absent, jobs⟩⟩ :=
    World.perform_createJob performed
  · exact sound.quiet performed ⟨events, jobs, deadLetters⟩
  · have grown : ledger.world.jobs.identities <+: world.jobs.identities := by
      rw [jobs]
      exact (List.prefix_append _ _).map _
    refine ⟨⟨?_, ?_, ?_, ?_, ?_, sound.stillPlanned performed⟩, earlier, grown, ?_⟩
    · exact jobs ▸ sound.distinct.append absent
    · intro other member
      have added : other ∈ ledger.world.jobs.jobs ∨ other = job := by
        simpa [answered, jobs] using member
      rcases added with old | rfl
      · exact (sound.jobs other old).mono earlier
      · exact Verifier.Admits.mono allowed earlier
    · exact fun entry member => (sound.entries entry (deadLetters ▸ member)).mono earlier
    · intro event member
      obtain ⟨body, fingerprint, admits⟩ := sound.events event (events ▸ member)
      exact ⟨body, fingerprint, admits.mono earlier⟩
    · intro event member processed
      obtain ⟨identity, known, same⟩ :=
        JobStore.hasJob_iff.mp (sound.processed event (events ▸ member) processed)
      exact JobStore.hasJob_iff.mpr ⟨identity, grown.mem known, same⟩
    · exact fun eventId known => events ▸ known

theorem Sound.updateJob (sound : ledger.Sound verifier truthful) {job : Job}
    (allowed : ledger.Allows verifier (.updateJob job)) {answer : Except QueueError Unit}
    (performed : ledger.world.perform (.updateJob job) = some (answer, world)) :
    (ledger.answered who (.updateJob job) answer world).Sound verifier truthful ∧
      ledger.Grows (ledger.answered who (.updateJob job) answer world) := by
  have earlier := ledger.answered_history who (.updateJob job) answer world
  obtain ⟨events, deadLetters, ⟨_, _, jobs⟩ | ⟨_, jobs⟩⟩ := World.perform_updateJob performed
  · exact sound.quiet performed ⟨events, jobs, deadLetters⟩
  · have same : world.jobs.identities = ledger.world.jobs.identities := by
      rw [jobs]
      exact JobStore.identities_replace sound.distinct allowed
    refine ⟨⟨?_, ?_, ?_, ?_, ?_, sound.stillPlanned performed⟩, earlier, ?_, ?_⟩
    · exact sound.distinct.of_identities same
    · intro other member
      have known : other.identity ∈ ledger.world.jobs.identities :=
        same ▸ List.mem_map_of_mem member
      obtain ⟨original, old, equal⟩ := List.mem_map.mp known
      have payload : original.payload = other.payload := congrArg JobIdentity.payload equal
      exact payload ▸ (sound.jobs original old).mono earlier
    · exact fun entry member => (sound.entries entry (deadLetters ▸ member)).mono earlier
    · intro event member
      obtain ⟨body, fingerprint, admits⟩ := sound.events event (events ▸ member)
      exact ⟨body, fingerprint, admits.mono earlier⟩
    · intro event member processed
      have hasJob := sound.processed event (events ▸ member) processed
      rw [JobStore.hasJob_iff] at hasJob ⊢
      exact same ▸ hasJob
    · exact same ▸ List.prefix_rfl
    · exact fun eventId known => events ▸ known

/-- The dead letters change by at most one entry whose payload was verified. -/
theorem Sound.changeEntries (sound : ledger.Sound verifier truthful) {request : Call}
    {answer : request.Answer}
    (performed : ledger.world.perform request = some (answer, world))
    (events : world.events = ledger.world.events) (jobs : world.jobs = ledger.world.jobs)
    {entry : DeadLetter} (admits : verifier.Admits ledger.history (Text.utf8 entry.payload))
    (changed : ∀ other ∈ world.deadLetters.entries,
      other = entry ∨ other ∈ ledger.world.deadLetters.entries) :
    (ledger.answered who request answer world).Sound verifier truthful ∧
      ledger.Grows (ledger.answered who request answer world) := by
  have earlier := ledger.answered_history who request answer world
  refine ⟨⟨?_, ?_, ?_, ?_, ?_, sound.stillPlanned performed⟩, earlier, ?_, ?_⟩
  · exact jobs ▸ sound.distinct
  · exact fun job member => (sound.jobs job (jobs ▸ member)).mono earlier
  · intro other member
    rcases changed other member with rfl | old
    · exact admits.mono earlier
    · exact (sound.entries other old).mono earlier
  · intro event member
    obtain ⟨body, fingerprint, admits⟩ := sound.events event (events ▸ member)
    exact ⟨body, fingerprint, admits.mono earlier⟩
  · exact fun event member processed => jobs ▸ sound.processed event (events ▸ member) processed
  · exact jobs ▸ List.prefix_rfl
  · exact fun eventId known => events ▸ known

theorem Sound.answered (sound : ledger.Sound verifier truthful) {request : Call}
    (allowed : ledger.Allows verifier request) {answer : request.Answer}
    (performed : ledger.world.perform request = some (answer, world)) :
    (ledger.answered who request answer world).Sound verifier truthful ∧
      ledger.Grows (ledger.answered who request answer world) := by
  cases writes : request.writes with
  | false => exact sound.quiet performed (World.perform_sameStores writes performed)
  | true =>
      cases request with
      | createEvent event => exact sound.createEvent allowed performed
      | markProcessed eventId time => exact sound.markProcessed allowed performed
      | createJob job => exact sound.createJob allowed performed
      | updateJob job => exact sound.updateJob allowed performed
      | createEntry entry =>
          obtain ⟨events, jobs, ⟨_, _, same⟩ | ⟨_, put⟩⟩ := World.perform_createEntry performed
          · exact sound.quiet performed ⟨events, jobs, same⟩
          · refine sound.changeEntries performed events jobs allowed fun other member => ?_
            exact DeadLetterStore.mem_put (put ▸ member)
      | updateEntry entry =>
          obtain ⟨events, jobs, ⟨_, _, same⟩ | ⟨_, replaced⟩⟩ :=
            World.perform_updateEntry performed
          · exact sound.quiet performed ⟨events, jobs, same⟩
          · refine sound.changeEntries performed events jobs allowed fun other member => ?_
            exact DeadLetterStore.mem_replace (replaced ▸ member)
      | _ => cases writes

end Calls

end Ledger

/-- The contract that receiving, processing and handling dead letters share. -/
def Contract.ofStores (verifier : Verifier) (truthful : Prop) : Contract where
  sound := Ledger.Sound verifier truthful
  allows _ ledger request := ledger.Allows verifier request
  later := Ledger.Grows
  between := Ledger.Grows
  later_refl := .refl
  later_trans := .trans
  between_refl := .refl
  between_trans := .trans
  later_of_between grows := grows
  keeps sound allowed performed := sound.answered allowed performed

theorem Contract.ofStores_allowsPasses (verifier : Verifier) (truthful : Prop) :
    (Contract.ofStores verifier truthful).AllowsPasses where
  aside aside := Ledger.allows_aside aside
  reads := trivial
  updates known := known
  keepsJobs grows := grows.jobs

end WebhookRelay
