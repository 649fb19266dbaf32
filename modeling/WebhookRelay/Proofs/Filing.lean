import WebhookRelay.Proofs.Turns

/-!
# The file of dead letters

An entry of the file mirrors a failed job, and no two entries are about one job, have one
id or name one job as their replay.  This holds after every call that a capture, a replay, a
pass or a request makes when they take turns, whichever calls are refused: what has failed is
never attempted again, so an entry stays true, and a capture asks for an entry before it
makes one.  Ids for entries have to be new, because an entry with a known id takes the
place of the old one.
-/

set_option autoImplicit false

namespace WebhookRelay

/-! ## New ids -/

/-- No id that was drawn for a purpose so far was drawn for it twice. -/
def IdSupply.Unrepeated (ids : IdSupply) (kind : IdKind) : Prop :=
  ∀ second < ids.drawn kind, ∀ first < second, ids.ids kind first ≠ ids.ids kind second

instance (ids : IdSupply) (kind : IdKind) : Decidable (ids.Unrepeated kind) :=
  inferInstanceAs (Decidable (∀ second < _, ∀ first < second, _))

theorem IdSupply.Unrepeated.earlier {ids before : IdSupply} {kind : IdKind}
    (unrepeated : ids.Unrepeated kind) (supply : ids.ids = before.ids)
    (drawn : before.drawn kind ≤ ids.drawn kind) : before.Unrepeated kind := by
  intro second isSecond first isFirst
  have inRange : second < ids.drawn kind := by omega
  rw [← supply]
  exact unrepeated second inRange first isFirst

/-! ## Jobs -/

/-- Jobs stay the jobs that they are, and those that have failed do not change at all. -/
structure JobStore.Keeps (before after : JobStore) : Prop where
  identities : before.identities <+: after.identities
  failed : ∀ job ∈ before.jobs, job.status = .failed → job ∈ after.jobs

namespace JobStore

theorem Keeps.refl (store : JobStore) : store.Keeps store :=
  ⟨List.prefix_rfl, fun _ member _ => member⟩

theorem Keeps.trans {first second third : JobStore} (before : first.Keeps second)
    (after : second.Keeps third) : first.Keeps third where
  identities := before.identities.trans after.identities
  failed job member failed := after.failed job (before.failed job member failed) failed

theorem Keeps.append (store : JobStore) (job : Job) : store.Keeps ⟨store.jobs ++ [job]⟩ where
  identities := by
    rw [JobStore.identities, JobStore.identities, List.map_append]
    exact List.prefix_append _ _
  failed other member _ := List.mem_append_left _ member

theorem Keeps.replace {store : JobStore} (distinct : store.Distinct) {job stored : Job}
    (member : stored ∈ store.jobs) (active : stored.status.isActive = true)
    (same : job.identity = stored.identity) :
    store.Keeps ⟨store.jobs.map fun other => if other.id = job.id then job else other⟩ := by
  have known : job.identity ∈ store.identities := by
    rw [same]
    exact List.mem_map_of_mem member
  refine ⟨?_, ?_⟩
  · have unchanged := identities_replace distinct known
    exact unchanged.symm ▸ List.prefix_rfl
  · intro other otherMember failed
    have different : other.id ≠ job.id := by
      intro equal
      have sameId : other.id = stored.id := equal.trans (congrArg JobIdentity.id same)
      obtain rfl : other = stored :=
        List.inj_on_of_nodup_map distinct otherMember member sameId
      rw [failed] at active
      cases active
    exact List.mem_map.mpr ⟨other, otherMember, if_neg different⟩

/-- A job is stored under an id, with this event and this payload. -/
def Requeues (store : JobStore) (id : Uuid) (eventId payload : String) : Prop :=
  ∃ job ∈ store.jobs, job.id = id ∧ job.eventId = eventId ∧ job.payload = payload

theorem Keeps.requeues {before after : JobStore} (keeps : before.Keeps after) {id : Uuid}
    {eventId payload : String} (requeues : before.Requeues id eventId payload) :
    after.Requeues id eventId payload := by
  obtain ⟨job, member, rfl, rfl, rfl⟩ := requeues
  have kept : job.identity ∈ after.identities :=
    keeps.identities.mem (List.mem_map_of_mem member)
  obtain ⟨later, laterMember, same⟩ := List.mem_map.mp kept
  have sameId : later.id = job.id := congrArg JobIdentity.id same
  have sameEvent : later.eventId = job.eventId := congrArg JobIdentity.eventId same
  have samePayload : later.payload = job.payload := congrArg JobIdentity.payload same
  exact ⟨later, laterMember, sameId, sameEvent, samePayload⟩

end JobStore

/-! ## Entries -/

namespace DeadLetter

/-- What an entry says of a job is what the job is. -/
structure Mirrors (entry : DeadLetter) (job : Job) : Prop where
  id : entry.jobId = job.id
  event : entry.eventId = job.eventId
  payload : entry.payload = job.payload
  attempts : entry.attempts = job.attempts
  error : entry.lastError = job.lastError

/-- Two entries are about different jobs, and so are their replays. -/
structure Apart (one other : DeadLetter) : Prop where
  ids : one.id ≠ other.id
  jobs : one.jobId ≠ other.jobId
  replays : ∀ jobId, one.replayJobId = some jobId → other.replayJobId ≠ some jobId

def captured (entry : DeadLetter) : DeadLetter :=
  { entry with replayedAt := none, replayJobId := none }

end DeadLetter

namespace DeadLetterStore

variable {store : DeadLetterStore} {entry : DeadLetter}

theorem put_of_new (new : ∀ other ∈ store.entries, other.id ≠ entry.id) :
    store.put entry = ⟨store.entries ++ [entry]⟩ := by
  have absent : store.find? entry.id = none := by
    rw [find?, List.find?_eq_none]
    intro other member
    simpa using new other member
  rw [put, absent]
  rfl

theorem not_containsJob {jobId : Uuid} (without : store.containsJob jobId = false) :
    ∀ other ∈ store.entries, other.jobId ≠ jobId := by
  intro other member
  rw [containsJob, List.any_eq_false] at without
  simpa using without other member

theorem id_of_find? {id : Uuid} (found : store.find? id = some entry) : entry.id = id := by
  simpa using List.find?_some found

end DeadLetterStore

/-- Every entry mirrors a failed job and, once it was replayed, names the job that took its
place; no two entries have anything of this in common. -/
structure Filed (world : World) : Prop where
  numbered : ∀ entry ∈ world.deadLetters.entries,
    ∃ place < world.ids.drawn .deadLetter, entry.id = world.ids.ids .deadLetter place
  apart : world.deadLetters.entries.Pairwise DeadLetter.Apart
  mirrors : ∀ entry ∈ world.deadLetters.entries,
    ∃ job ∈ world.jobs.jobs, job.status = .failed ∧ entry.Mirrors job
  noted : ∀ entry ∈ world.deadLetters.entries,
    entry.replayedAt.isSome = entry.replayJobId.isSome
  replayed : ∀ entry ∈ world.deadLetters.entries, ∀ jobId, entry.replayJobId = some jobId →
    world.jobs.Requeues jobId entry.eventId entry.payload

def World.Enters (world : World) (entry : DeadLetter) : Prop :=
  (∃ place < world.ids.drawn .deadLetter, entry.id = world.ids.ids .deadLetter place) ∧
    (∀ other ∈ world.deadLetters.entries, other.id ≠ entry.id ∧ other.jobId ≠ entry.jobId) ∧
    ∃ job ∈ world.jobs.jobs, job.status = .failed ∧ ∃ now, entry = .ofJob entry.id job now

def World.Notes (world : World) (entry : DeadLetter) : Prop :=
  ∃ old ∈ world.deadLetters.entries, ∃ now jobId, entry = old.replayedAs now jobId ∧
    world.jobs.Requeues jobId old.eventId old.payload ∧
    ∀ other ∈ world.deadLetters.entries, other.replayJobId ≠ some jobId

namespace Filed

variable {world after : World}

/-- What does not concern the entries leaves them true. -/
theorem frame (filed : Filed world) (jobs : world.jobs.Keeps after.jobs)
    (entries : after.deadLetters = world.deadLetters) (supply : after.ids.ids = world.ids.ids)
    (drawn : world.ids.drawn .deadLetter ≤ after.ids.drawn .deadLetter) : Filed after := by
  refine ⟨?_, ?_, ?_, ?_, ?_⟩ <;> rw [entries]
  · intro entry member
    obtain ⟨place, isPlace, isId⟩ := filed.numbered entry member
    refine ⟨place, by omega, ?_⟩
    rw [supply]
    exact isId
  · exact filed.apart
  · intro entry member
    obtain ⟨job, jobMember, failed, mirrors⟩ := filed.mirrors entry member
    exact ⟨job, jobs.failed job jobMember failed, failed, mirrors⟩
  · exact filed.noted
  · intro entry member jobId named
    exact jobs.requeues (filed.replayed entry member jobId named)

theorem unique (filed : Filed world) {one other : DeadLetter}
    (member : one ∈ world.deadLetters.entries) (otherMember : other ∈ world.deadLetters.entries)
    (same : one.id = other.id) : one = other := by
  have once : (world.deadLetters.entries.map DeadLetter.id).Nodup :=
    List.pairwise_map.mpr (filed.apart.imp fun apart => apart.ids)
  exact List.inj_on_of_nodup_map once member otherMember same

theorem enter (filed : Filed world) {entry : DeadLetter} (enters : world.Enters entry)
    (jobs : after.jobs = world.jobs) (ids : after.ids = world.ids)
    (added : after.deadLetters.entries = world.deadLetters.entries ++ [entry]) :
    Filed after := by
  obtain ⟨numbered, new, job, jobMember, failed, now, isCapture⟩ := enters
  have notReplayed : entry.replayedAt = none ∧ entry.replayJobId = none := by
    rw [isCapture]
    exact ⟨rfl, rfl⟩
  have mirrors : entry.Mirrors job := by
    rw [isCapture]
    exact ⟨rfl, rfl, rfl, rfl, rfl⟩
  -- Each field asks something of every entry: of the old ones, and of the new one.
  have each {property : DeadLetter → Prop}
      (old : ∀ other ∈ world.deadLetters.entries, property other) (own : property entry) :
      ∀ other ∈ after.deadLetters.entries, property other := by
    intro other member
    rw [added] at member
    rcases List.mem_append.mp member with earlier | last
    · exact old other earlier
    · rw [List.mem_singleton.mp last]
      exact own
  refine ⟨?_, ?_, ?_, ?_, ?_⟩
  · rw [ids]
    exact each filed.numbered numbered
  · rw [added]
    refine List.pairwise_append.mpr ⟨filed.apart, List.pairwise_singleton _ _, ?_⟩
    intro other member last isLast
    rw [List.mem_singleton.mp isLast]
    obtain ⟨otherId, otherJob⟩ := new other member
    refine ⟨otherId, otherJob, ?_⟩
    intro jobId _ impossible
    rw [notReplayed.2] at impossible
    cases impossible
  · rw [jobs]
    exact each filed.mirrors ⟨job, jobMember, failed, mirrors⟩
  · refine each filed.noted ?_
    rw [notReplayed.1, notReplayed.2]
    rfl
  · rw [jobs]
    refine each filed.replayed ?_
    intro jobId impossible
    rw [notReplayed.2] at impossible
    cases impossible

theorem note (filed : Filed world) {entry : DeadLetter} (notes : world.Notes entry)
    (jobs : after.jobs = world.jobs) (ids : after.ids = world.ids)
    (replaced : after.deadLetters = world.deadLetters.replace entry) : Filed after := by
  obtain ⟨old, oldMember, now, jobId, rfl, requeued, unnamed⟩ := notes
  have each {property : DeadLetter → Prop}
      (others : ∀ other ∈ world.deadLetters.entries, property other)
      (own : property old → property (old.replayedAs now jobId)) :
      ∀ other ∈ after.deadLetters.entries, property other := by
    intro other member
    rw [replaced] at member
    rcases DeadLetterStore.mem_replace member with rfl | unchanged
    · exact own (others old oldMember)
    · exact others other unchanged
  refine ⟨?_, ?_, ?_, ?_, ?_⟩
  · rw [ids]
    exact each filed.numbered fun numbered => numbered
  · have isOld {other : DeadLetter} (member : other ∈ world.deadLetters.entries)
        (same : other.id = (old.replayedAs now jobId).id) : other = old :=
      filed.unique member oldMember same
    rw [replaced, DeadLetterStore.replace, List.pairwise_map]
    refine filed.apart.imp_of_mem ?_
    intro one other oneMember otherMember apart
    by_cases oneOld : one.id = (old.replayedAs now jobId).id
    · obtain rfl := isOld oneMember oneOld
      have otherNew : other.id ≠ (one.replayedAs now jobId).id := apart.ids.symm
      rw [if_pos oneOld, if_neg otherNew]
      refine ⟨apart.ids, apart.jobs, ?_⟩
      intro named isNamed
      cases isNamed
      exact unnamed other otherMember
    · rw [if_neg oneOld]
      by_cases otherOld : other.id = (old.replayedAs now jobId).id
      · obtain rfl := isOld otherMember otherOld
        rw [if_pos otherOld]
        refine ⟨apart.ids, apart.jobs, ?_⟩
        intro named isNamed otherNamed
        cases otherNamed
        exact unnamed one oneMember isNamed
      · rw [if_neg otherOld]
        exact apart
  · rw [jobs]
    refine each filed.mirrors ?_
    intro ⟨job, jobMember, failed, mirrors⟩
    exact ⟨job, jobMember, failed,
      ⟨mirrors.id, mirrors.event, mirrors.payload, mirrors.attempts, mirrors.error⟩⟩
  · exact each filed.noted fun _ => rfl
  · rw [jobs]
    refine each filed.replayed ?_
    intro _ named isNamed
    cases isNamed
    exact requeued

end Filed

/-! ## What calls preserve -/

namespace World

def Files (world : World) : Call → Prop
  | .updateJob job => ∃ stored ∈ world.jobs.jobs, stored.status.isActive = true ∧
      job.identity = stored.identity
  | .createEntry entry => world.ids.Unrepeated .deadLetter → world.Enters entry
  | .updateEntry entry => world.ids.Unrepeated .deadLetter → world.Notes entry
  | _ => True

theorem files_of_aside {world : World} {request : Call} (aside : request.aside = true) :
    world.Files request := by
  cases request <;> first | exact trivial | cases aside

/-- The jobs are kept, ids are only drawn, and entries stay as they were captured. -/
structure FilesOn (before after : World) : Prop where
  jobs : before.jobs.Keeps after.jobs
  supply : after.ids.ids = before.ids.ids
  drawn : before.ids.drawn .deadLetter ≤ after.ids.drawn .deadLetter
  entries : after.ids.Unrepeated .deadLetter →
    before.deadLetters.entries.map DeadLetter.captured <+:
      after.deadLetters.entries.map DeadLetter.captured

namespace FilesOn

theorem refl (world : World) : world.FilesOn world :=
  ⟨.refl _, rfl, Nat.le_refl _, fun _ => List.prefix_rfl⟩

theorem trans {first second third : World} (before : first.FilesOn second)
    (after : second.FilesOn third) : first.FilesOn third where
  jobs := before.jobs.trans after.jobs
  supply := after.supply.trans before.supply
  drawn := Nat.le_trans before.drawn after.drawn
  entries unrepeated :=
    (before.entries (unrepeated.earlier after.supply after.drawn)).trans
      (after.entries unrepeated)

end FilesOn

variable {world after : World}

theorem perform_keepsJobs (distinct : world.jobs.Distinct) {request : Call}
    (files : world.Files request) {answer : request.Answer}
    (performed : world.perform request = some (answer, after)) :
    after.jobs.Distinct ∧ world.jobs.Keeps after.jobs := by
  obtain same | ⟨job, rfl, absent, added⟩ | ⟨job, rfl, replaced⟩ := perform_jobs performed
  · rw [same]
    exact ⟨distinct, .refl _⟩
  · rw [added]
    exact ⟨distinct.append absent, .append _ job⟩
  · obtain ⟨stored, member, active, same⟩ := files
    have known : job.identity ∈ world.jobs.identities := by
      rw [same]
      exact List.mem_map_of_mem member
    rw [replaced]
    exact ⟨distinct.of_identities (JobStore.identities_replace distinct known),
      .replace distinct member active same⟩

/-- The only changes of the file: an entry is made, or one is stored anew. -/
theorem perform_deadLetters {request : Call} {answer : request.Answer}
    (performed : world.perform request = some (answer, after)) :
    after.deadLetters = world.deadLetters ∨
      (∃ entry, request = .createEntry entry ∧ after.jobs = world.jobs ∧
        after.ids = world.ids ∧ after.deadLetters = world.deadLetters.put entry) ∨
      ∃ entry, request = .updateEntry entry ∧ after.jobs = world.jobs ∧
        after.ids = world.ids ∧ after.deadLetters = world.deadLetters.replace entry := by
  cases writes : request.writes with
  | false => exact Or.inl (perform_sameStores writes performed).deadLetters
  | true =>
      cases request with
      | createEvent event => exact Or.inl (perform_createEvent performed).2.1
      | markProcessed eventId time => exact Or.inl (perform_markProcessed performed).2.1
      | createJob job => exact Or.inl (perform_createJob performed).2.1
      | updateJob job => exact Or.inl (perform_updateJob performed).2.1
      | createEntry entry =>
          have ids := perform_ids performed fun _ => nofun
          obtain ⟨_, jobs, ⟨_, _, same⟩ | ⟨_, put⟩⟩ := perform_createEntry performed
          · exact Or.inl same
          · exact Or.inr (Or.inl ⟨entry, rfl, jobs, ids, put⟩)
      | updateEntry entry =>
          have ids := perform_ids performed fun _ => nofun
          obtain ⟨_, jobs, ⟨_, _, same⟩ | ⟨_, replaced⟩⟩ := perform_updateEntry performed
          · exact Or.inl same
          · exact Or.inr (Or.inr ⟨entry, rfl, jobs, ids, replaced⟩)
      | _ => cases writes

theorem perform_filed {request : Call} (unrepeated : world.ids.Unrepeated .deadLetter)
    (filed : Filed world) (files : world.Files request) (jobs : world.jobs.Keeps after.jobs)
    {answer : request.Answer} (performed : world.perform request = some (answer, after)) :
    Filed after ∧ world.deadLetters.entries.map DeadLetter.captured <+:
      after.deadLetters.entries.map DeadLetter.captured := by
  obtain ⟨supply, drawn⟩ := perform_supply performed
  obtain same | ⟨entry, rfl, sameJobs, ids, put⟩ | ⟨entry, rfl, sameJobs, ids, replaced⟩ :=
    perform_deadLetters performed
  · refine ⟨filed.frame jobs same supply (drawn .deadLetter), ?_⟩
    exact same ▸ List.prefix_rfl
  · have enters : world.Enters entry := files unrepeated
    have added : after.deadLetters.entries = world.deadLetters.entries ++ [entry] := by
      rw [put, DeadLetterStore.put_of_new fun other member => (enters.2.1 other member).1]
    refine ⟨filed.enter enters sameJobs ids added, ?_⟩
    rw [added, List.map_append]
    exact List.prefix_append _ _
  · have notes : world.Notes entry := files unrepeated
    refine ⟨filed.note notes sameJobs ids replaced, ?_⟩
    obtain ⟨old, oldMember, now, jobId, rfl, _, _⟩ := notes
    have unchanged : after.deadLetters.entries.map DeadLetter.captured =
        world.deadLetters.entries.map DeadLetter.captured := by
      rw [replaced, DeadLetterStore.replace, List.map_map]
      refine List.map_congr_left fun other member => ?_
      simp only [Function.comp]
      split
      · rename_i same
        rw [filed.unique member oldMember same]
        rfl
      · rfl
    exact unchanged ▸ List.prefix_rfl

end World

/-- The contract of activities that take turns: as long as no id for an entry was drawn
twice, the file is in order. -/
def Contract.filing : Contract where
  sound ledger := ledger.world.jobs.Distinct ∧
    (ledger.world.ids.Unrepeated .deadLetter → Filed ledger.world)
  allows _ ledger request := ledger.world.Files request
  later before after := before.world.FilesOn after.world
  between := Eq
  later_refl ledger := .refl ledger.world
  later_trans := .trans
  between_refl _ := rfl
  between_trans := Eq.trans
  later_of_between same := same ▸ .refl _
  keeps := by
    intro who ledger request answer world ⟨distinct, filed⟩ files performed
    obtain ⟨stillDistinct, jobs⟩ := World.perform_keepsJobs distinct files performed
    obtain ⟨supply, drawn⟩ := World.perform_supply performed
    have earlier (unrepeated : world.ids.Unrepeated .deadLetter) :
        ledger.world.ids.Unrepeated .deadLetter :=
      unrepeated.earlier supply (drawn .deadLetter)
    have stays (unrepeated : world.ids.Unrepeated .deadLetter) :=
      World.perform_filed (earlier unrepeated) (filed (earlier unrepeated)) files jobs performed
    refine ⟨⟨stillDistinct, fun unrepeated => (stays unrepeated).1⟩, ?_⟩
    exact ⟨jobs, supply, drawn .deadLetter, fun unrepeated => (stays unrepeated).2⟩

theorem Contract.filing_undisturbed : Contract.filing.Undisturbed :=
  fun _ _ same => same

end WebhookRelay
