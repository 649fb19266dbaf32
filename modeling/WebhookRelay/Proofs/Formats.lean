import WebhookRelay.Alert
import WebhookRelay.Audit.Record
import WebhookRelay.Config.Settings
import WebhookRelay.DeadLetter
import WebhookRelay.Key.Jwk
import WebhookRelay.Proofs.Members
import WebhookRelay.Proofs.WrittenIds
import WebhookRelay.Proofs.WrittenTimes

/-!
# Kept formats

Every kind of record is read back from the value that is written for it.
-/

set_option autoImplicit false

namespace WebhookRelay

namespace Json

/-! ## Values of the fields -/

theorem time_reads {t : Timestamp} (supported : t.inRange = true) :
    ReadsAs asTime time t t.shown :=
  Rfc3339.parse?_render supported

theorem past_reads {past : Option Timestamp} (supported : ∀ t ∈ past, t.inRange = true) :
    ReadsAs (nullable asTime) (ofOption time) past (past.map Timestamp.shown) :=
  nullable_reads Timestamp.shown rfl fun t held => time_reads (supported t held)

theorem uuid_recovers (id : Uuid) : Recovers asUuid uuid id := by
  simp only [Recovers, ReadsAs, read?, uuid, Raw.ofValue, asUuid, Uuid.parse?_render]

theorem uint16_recovers (n : UInt16) : Recovers asUInt16 uint16 n := by
  have bounded : n.toNat ≤ Decimal.uint16Max := Nat.le_of_lt_succ n.toNat_lt
  show (asNat _ (Raw.ofValue (.int n.toNat))).map UInt16.ofNat = some n
  rw [asNat_ofNat bounded, Option.map_some, UInt16.ofNat_toNat]

theorem uint32_recovers (n : UInt32) : Recovers asUInt32 uint32 n := by
  have bounded : n.toNat ≤ Decimal.uint32Max := Nat.le_of_lt_succ n.toNat_lt
  show (asNat _ (Raw.ofValue (.int n.toNat))).map UInt32.ofNat = some n
  rw [asNat_ofNat bounded, Option.map_some, UInt32.ofNat_toNat]

theorem uint64_recovers (n : UInt64) : Recovers asUInt64 uint64 n := by
  have bounded : n.toNat ≤ Decimal.uint64Max := Nat.le_of_lt_succ n.toNat_lt
  show (asNat _ (Raw.ofValue (.int n.toNat))).map UInt64.ofNat = some n
  rw [asNat_ofNat bounded, Option.map_some, UInt64.ofNat_toNat]

end Json

open Json

theorem JobStatus.name_recovers (status : JobStatus) :
    Recovers (asName names) (fun status => .str status.name) status := by
  cases status <;> rfl

theorem EventStatus.name_recovers (status : EventStatus) :
    Recovers (asName names) (fun status => .str status.name) status := by
  cases status <;> rfl

/-! ## Jobs, events and what is kept about them

A record is read back with the times that their written forms show, so it is the same one if a
clock can show them all.  The times of a record are listed, so that one condition speaks of all
of them. -/

namespace Job

def times (job : Job) : List Timestamp :=
  job.nextRetryAt :: job.createdAt :: job.lastAttemptAt.toList

def shown (job : Job) : Job :=
  { job with
    nextRetryAt := job.nextRetryAt.shown
    lastAttemptAt := job.lastAttemptAt.map .shown
    createdAt := job.createdAt.shown }

theorem shown_eq_self_iff (job : Job) : job.shown = job ↔ ∀ t ∈ job.times, t.onClock = true := by
  cases job
  simp [shown, times, and_comm]

theorem reads {job : Job} (supported : ∀ t ∈ job.times, t.inRange = true) :
    ReadsAs ofRaw? toJson job job.shown := by
  have next : job.nextRetryAt.inRange = true := supported _ (by simp [times])
  have created : job.createdAt.inRange = true := supported _ (by simp [times])
  have past : ∀ t ∈ job.lastAttemptAt, t.inRange = true :=
    fun t held => supported t (by simp_all [times])
  unfold ReadsAs read? ofRaw? toJson
  refine (recordWith?_then fieldNames (by decide) (by rfl)).trans ?_
  refine (required_then (uuid_recovers job.id) (by rfl)).trans ?_
  refine (required_then (text_recovers job.eventId) (by rfl)).trans ?_
  refine (required_then (text_recovers job.payload) (by rfl)).trans ?_
  refine (required_then (JobStatus.name_recovers job.status) (by rfl)).trans ?_
  refine (required_then (uint32_recovers job.attempts) (by rfl)).trans ?_
  refine (required_then (time_reads next) (by rfl)).trans ?_
  refine (optional_then job.lastError rfl (texts_recover _) (by rfl)).trans ?_
  refine (defaulted_then none (past_reads past) (by rfl)).trans ?_
  exact required_then (time_reads created) (by rfl)

theorem recovers_iff {job : Job} (supported : ∀ t ∈ job.times, t.inRange = true) :
    Recovers ofRaw? toJson job ↔ ∀ t ∈ job.times, t.onClock = true :=
  (reads supported).recovers_iff.trans job.shown_eq_self_iff

end Job

namespace DeadLetter

def times (entry : DeadLetter) : List Timestamp :=
  entry.capturedAt :: entry.replayedAt.toList

def shown (entry : DeadLetter) : DeadLetter :=
  { entry with
    capturedAt := entry.capturedAt.shown
    replayedAt := entry.replayedAt.map .shown }

theorem shown_eq_self_iff (entry : DeadLetter) :
    entry.shown = entry ↔ ∀ t ∈ entry.times, t.onClock = true := by
  cases entry
  simp [shown, times]

theorem reads {entry : DeadLetter} (supported : ∀ t ∈ entry.times, t.inRange = true) :
    ReadsAs ofRaw? toJson entry entry.shown := by
  have captured : entry.capturedAt.inRange = true := supported _ (by simp [times])
  have past : ∀ t ∈ entry.replayedAt, t.inRange = true :=
    fun t held => supported t (by simp_all [times])
  unfold ReadsAs read? ofRaw? toJson
  refine (recordWith?_then fieldNames (by decide) (by rfl)).trans ?_
  refine (required_then (uuid_recovers entry.id) (by rfl)).trans ?_
  refine (required_then (uuid_recovers entry.jobId) (by rfl)).trans ?_
  refine (required_then (text_recovers entry.eventId) (by rfl)).trans ?_
  refine (required_then (text_recovers entry.payload) (by rfl)).trans ?_
  refine (required_then (uint32_recovers entry.attempts) (by rfl)).trans ?_
  refine (optional_then entry.lastError rfl (texts_recover _) (by rfl)).trans ?_
  refine (required_then (time_reads captured) (by rfl)).trans ?_
  refine (defaulted_then none (past_reads past) (by rfl)).trans ?_
  exact optional_then entry.replayJobId rfl (fun id _ => uuid_recovers id) (by rfl)

theorem recovers_iff {entry : DeadLetter} (supported : ∀ t ∈ entry.times, t.inRange = true) :
    Recovers ofRaw? toJson entry ↔ ∀ t ∈ entry.times, t.onClock = true :=
  (reads supported).recovers_iff.trans entry.shown_eq_self_iff

end DeadLetter

namespace Event

def times (event : Event) : List Timestamp :=
  event.receivedAt :: event.processedAt.toList

def shown (event : Event) : Event :=
  { event with
    receivedAt := event.receivedAt.shown
    processedAt := event.processedAt.map .shown }

theorem shown_eq_self_iff (event : Event) :
    event.shown = event ↔ ∀ t ∈ event.times, t.onClock = true := by
  cases event
  simp [shown, times]

theorem reads {event : Event} (supported : ∀ t ∈ event.times, t.inRange = true) :
    ReadsAs ofRaw? toJson event event.shown := by
  have received : event.receivedAt.inRange = true := supported _ (by simp [times])
  have past : ∀ t ∈ event.processedAt, t.inRange = true :=
    fun t held => supported t (by simp_all [times])
  unfold ReadsAs read? ofRaw? toJson
  refine (recordWith?_then fieldNames (by decide) (by rfl)).trans ?_
  refine (required_then (text_recovers event.eventId) (by rfl)).trans ?_
  refine (optional_then event.eventType rfl (texts_recover _) (by rfl)).trans ?_
  refine (required_then (text_recovers event.orderId) (by rfl)).trans ?_
  refine (required_then (EventStatus.name_recovers event.status) (by rfl)).trans ?_
  refine (required_then (text_recovers event.fingerprint) (by rfl)).trans ?_
  refine (required_then (time_reads received) (by rfl)).trans ?_
  exact defaulted_then none (past_reads past) (by rfl)

theorem recovers_iff {event : Event} (supported : ∀ t ∈ event.times, t.inRange = true) :
    Recovers ofRaw? toJson event ↔ ∀ t ∈ event.times, t.onClock = true :=
  (reads supported).recovers_iff.trans event.shown_eq_self_iff

end Event

namespace AuditRecord

def shown (record : AuditRecord) : AuditRecord :=
  { record with createdAt := record.createdAt.shown }

theorem shown_eq_self_iff (record : AuditRecord) :
    record.shown = record ↔ record.createdAt.onClock = true := by
  cases record
  simp [shown]

theorem reads {record : AuditRecord} (supported : record.createdAt.inRange = true) :
    ReadsAs ofRaw? toJson record record.shown := by
  unfold ReadsAs read? ofRaw? toJson
  refine (recordWith?_then fieldNames (by decide) (by rfl)).trans ?_
  refine (required_then (text_recovers record.id) (by rfl)).trans ?_
  refine (optional_then record.eventId rfl (texts_recover _) (by rfl)).trans ?_
  refine (required_then (text_recovers record.reason) (by rfl)).trans ?_
  refine (optional_then record.signatureHeader rfl (texts_recover _) (by rfl)).trans ?_
  refine (optional_then record.keyId rfl (texts_recover _) (by rfl)).trans ?_
  refine (required_then (text_recovers record.fingerprint) (by rfl)).trans ?_
  exact required_then (time_reads supported) (by rfl)

theorem recovers_iff {record : AuditRecord} (supported : record.createdAt.inRange = true) :
    Recovers ofRaw? toJson record ↔ record.createdAt.onClock = true :=
  (reads supported).recovers_iff.trans record.shown_eq_self_iff

end AuditRecord

namespace Alert

def shown (alert : Alert) : Alert :=
  { alert with createdAt := alert.createdAt.shown }

theorem shown_eq_self_iff (alert : Alert) :
    alert.shown = alert ↔ alert.createdAt.onClock = true := by
  cases alert
  simp [shown]

theorem reads {alert : Alert} (supported : alert.createdAt.inRange = true) :
    ReadsAs ofRaw? toJson alert alert.shown := by
  unfold ReadsAs read? ofRaw? toJson
  refine (recordWith?_then fieldNames (by decide) (by rfl)).trans ?_
  refine (required_then (text_recovers alert.id) (by rfl)).trans ?_
  refine (required_then (text_recovers alert.eventId) (by rfl)).trans ?_
  refine (required_then (text_recovers alert.reason) (by rfl)).trans ?_
  refine (required_then (text_recovers alert.details) (by rfl)).trans ?_
  refine (required_then (uint32_recovers alert.attemptCount) (by rfl)).trans ?_
  exact required_then (time_reads supported) (by rfl)

theorem recovers_iff {alert : Alert} (supported : alert.createdAt.inRange = true) :
    Recovers ofRaw? toJson alert ↔ alert.createdAt.onClock = true :=
  (reads supported).recovers_iff.trans alert.shown_eq_self_iff

end Alert

/-! ## Key sets -/

namespace Jwk

/-- The members of a key, which are written where they hold something. -/
def members (key : Jwk) : List (String × Option Json) :=
  [("kty", some (.str key.keyType)), ("crv", key.curve.map .str), ("x", key.x.map .str),
    ("y", key.y.map .str), ("kid", key.keyId.map .str), ("use", key.use.map .str),
    ("alg", key.algorithm.map .str)]

theorem members_nodup (key : Jwk) : (key.members.map Prod.fst).Nodup := by
  show fieldNames.Nodup
  decide

theorem recovers (key : Jwk) : Recovers ofRaw? toJson key := by
  have distinct := key.members_nodup
  have kept := names_presentOf key.members
  have start : recordWith? 6 fieldNames (Raw.ofValue key.toJson) =
      some (fieldsOf (presentOf key.members)) :=
    recordWith?_obj (kept.nodup distinct) fun member inside =>
      kept.subset (List.mem_map_of_mem inside)
  unfold Recovers ReadsAs read? ofRaw?
  refine (bind_of_eq_some start).trans ?_
  refine (required_then (text_recovers key.keyType)
    (lookup?_presentOf distinct (by simp [members]))).trans ?_
  refine (present_then key.curve rfl (texts_recover _)
    (lookup?_presentOf distinct (by simp [members]))).trans ?_
  refine (present_then key.x rfl (texts_recover _)
    (lookup?_presentOf distinct (by simp [members]))).trans ?_
  refine (present_then key.y rfl (texts_recover _)
    (lookup?_presentOf distinct (by simp [members]))).trans ?_
  refine (present_then key.keyId rfl (texts_recover _)
    (lookup?_presentOf distinct (by simp [members]))).trans ?_
  refine (present_then key.use rfl (texts_recover _)
    (lookup?_presentOf distinct (by simp [members]))).trans ?_
  exact present_then key.algorithm rfl (texts_recover _)
    (lookup?_presentOf distinct (by simp [members]))

end Jwk

theorem JwkSet.recovers (set : JwkSet) : Recovers ofRaw? toJson set := by
  unfold Recovers ReadsAs read? ofRaw? toJson
  refine (recordWith?_then _ (by decide) (by rfl)).trans ?_
  exact required_then (list_recovers fun key _ => Jwk.recovers key) (by rfl)

/-! ## Settings -/

theorem ServerSettings.recovers (s : ServerSettings) : Recovers ofRaw? toJson s := by
  unfold Recovers ReadsAs read? ofRaw? toJson
  refine (recordWith?_then _ (by decide) (by rfl)).trans ?_
  refine (defaulted_then _ (text_recovers s.host) (by rfl)).trans ?_
  refine (defaulted_then _ (uint16_recovers s.port) (by rfl)).trans ?_
  exact defaulted_then _ (uint64_recovers s.maxBodyBytes) (by rfl)

theorem VerifierSettings.recovers (s : VerifierSettings) : Recovers ofRaw? toJson s := by
  unfold Recovers ReadsAs read? ofRaw? toJson
  refine (recordWith?_then _ (by decide) (by rfl)).trans ?_
  refine (optional_then s.jwkSetUrl rfl (texts_recover _) (by rfl)).trans ?_
  refine (defaulted_then _ (uint64_recovers s.toleranceSecs) (by rfl)).trans ?_
  refine (defaulted_then _ (uint64_recovers s.cacheTtlSecs) (by rfl)).trans ?_
  refine (defaulted_then _ (uint64_recovers s.fetchTimeoutSecs) (by rfl)).trans ?_
  refine (defaulted_then _ (uint64_recovers s.minRefreshIntervalSecs) (by rfl)).trans ?_
  refine (defaulted_then _ (bool_recovers s.skipVerification) (by rfl)).trans ?_
  refine (defaulted_then _ (bool_recovers s.nonceCheck) (by rfl)).trans ?_
  exact defaulted_then _ (uint64_recovers s.nonceTtlSecs) (by rfl)

theorem ReplaySettings.recovers (s : ReplaySettings) : Recovers ofRaw? toJson s := by
  unfold Recovers ReadsAs read? ofRaw? toJson
  refine (recordWith?_then _ (by decide) (by rfl)).trans ?_
  exact defaulted_then _ (uint64_recovers s.windowSecs) (by rfl)

theorem QueueSettings.recovers (s : QueueSettings) : Recovers ofRaw? toJson s := by
  unfold Recovers ReadsAs read? ofRaw? toJson
  refine (recordWith?_then _ (by decide) (by rfl)).trans ?_
  refine (defaulted_then _ (uint64_recovers s.batchSize) (by rfl)).trans ?_
  refine (defaulted_then _ (uint32_recovers s.maxAttempts) (by rfl)).trans ?_
  refine (defaulted_then _ (uint64_recovers s.baseDelaySecs) (by rfl)).trans ?_
  exact defaulted_then _ (uint64_recovers s.pollIntervalSecs) (by rfl)

theorem DeliverySettings.recovers (s : DeliverySettings) : Recovers ofRaw? toJson s := by
  unfold Recovers ReadsAs read? ofRaw? toJson
  refine (recordWith?_then _ (by decide) (by rfl)).trans ?_
  refine (optional_then s.url rfl (texts_recover _) (by rfl)).trans ?_
  refine (defaulted_then _ (uint64_recovers s.timeoutSecs) (by rfl)).trans ?_
  exact defaulted_then _ (text_recovers s.userAgent) (by rfl)

theorem AlertSettings.recovers (s : AlertSettings) : Recovers ofRaw? toJson s := by
  unfold Recovers ReadsAs read? ofRaw? toJson
  refine (recordWith?_then _ (by decide) (by rfl)).trans ?_
  refine (defaulted_then _ (uint32_recovers s.minAttempts) (by rfl)).trans ?_
  exact defaulted_then _ (uint64_recovers s.dedupeWindowSecs) (by rfl)

theorem AuditSettings.recovers (s : AuditSettings) : Recovers ofRaw? toJson s := by
  unfold Recovers ReadsAs read? ofRaw? toJson
  refine (recordWith?_then _ (by decide) (by rfl)).trans ?_
  exact optional_then s.file rfl (texts_recover _) (by rfl)

theorem Settings.recovers (s : Settings) : Recovers ofRaw? toJson s := by
  unfold Recovers ReadsAs read? ofRaw? toJson
  refine (recordWith?_then _ (by decide) (by rfl)).trans ?_
  refine (defaulted_then _ s.server.recovers (by rfl)).trans ?_
  refine (defaulted_then _ s.verifier.recovers (by rfl)).trans ?_
  refine (defaulted_then _ s.replay.recovers (by rfl)).trans ?_
  refine (defaulted_then _ s.queue.recovers (by rfl)).trans ?_
  refine (defaulted_then _ s.delivery.recovers (by rfl)).trans ?_
  refine (defaulted_then _ s.alerts.recovers (by rfl)).trans ?_
  exact defaulted_then _ s.audit.recovers (by rfl)

/-! ## All formats -/

namespace Sample

/-- The middle of the leap second at the end of 2016. -/
def leapSecond : Timestamp := ⟨1483228799, 1500000000⟩

/-- A job of both ends of time, with a leap second between them. -/
def farJob : Job where
  id := .ofNat 0x0123456789abcdef0123456789abcdef
  eventId := "a\"b\\c\nd"
  payload := ""
  status := .retrying
  attempts := 4294967295
  nextRetryAt := .latest
  lastError := some "é"
  lastAttemptAt := some leapSecond
  createdAt := .earliest

def farLetter : DeadLetter :=
  { DeadLetter.ofJob (.ofNat 1) farJob .latest with replayedAt := some leapSecond }

def farEvent : Event where
  eventId := "a"
  eventType := none
  orderId := "b"
  status := .processed
  fingerprint := ""
  receivedAt := .earliest
  processedAt := some leapSecond

def farRecord : AuditRecord :=
  { AuditRecord.create "" leapSecond "a\r\nb" "" with keyId := some "" }

def farAlert : Alert where
  id := ""
  eventId := "a"
  reason := "b"
  details := "c"
  attemptCount := 0
  createdAt := .latest

/-- A fraction of one second behind the first second of 1970. -/
def strayTime : Timestamp := ⟨0, 1000000000⟩

def strayJob : Job :=
  .create (.ofNat 1) strayTime "evt_1" "p"

end Sample

end WebhookRelay
