import WebhookRelay.Delivery.Sender
import WebhookRelay.Json.Record

/-!
# Settings

All settings of the service in their sections. A missing setting or section takes its
default; a section that is an array gives its settings in order.
-/

set_option autoImplicit false

namespace WebhookRelay

structure ServerSettings where
  host : String := "0.0.0.0"
  port : UInt16 := 8080
  maxBodyBytes : UInt64 := 1048576
  deriving DecidableEq, Repr

structure VerifierSettings where
  jwkSetUrl : Option String := none
  toleranceSecs : UInt64 := 300
  cacheTtlSecs : UInt64 := 600
  fetchTimeoutSecs : UInt64 := 5
  minRefreshIntervalSecs : UInt64 := 30
  skipVerification : Bool := false
  nonceCheck : Bool := true
  nonceTtlSecs : UInt64 := 600
  deriving DecidableEq, Repr

structure ReplaySettings where
  windowSecs : UInt64 := 600
  deriving DecidableEq, Repr

structure QueueSettings where
  batchSize : UInt64 := 50
  maxAttempts : UInt32 := 5
  baseDelaySecs : UInt64 := 60
  pollIntervalSecs : UInt64 := 2
  deriving DecidableEq, Repr

structure DeliverySettings where
  url : Option String := none
  timeoutSecs : UInt64 := 5
  userAgent : String := productName
  deriving DecidableEq, Repr

structure AlertSettings where
  minAttempts : UInt32 := 2
  dedupeWindowSecs : UInt64 := 3600
  deriving DecidableEq, Repr

structure AuditSettings where
  file : Option String := none
  deriving DecidableEq, Repr

structure Settings where
  server : ServerSettings := {}
  verifier : VerifierSettings := {}
  replay : ReplaySettings := {}
  queue : QueueSettings := {}
  delivery : DeliverySettings := {}
  alerts : AlertSettings := {}
  audit : AuditSettings := {}
  deriving DecidableEq, Repr

instance : Inhabited Settings := ⟨{}⟩

open Json

namespace Json

def recordOfDefaults? (names : List String) : Raw → Option Fields :=
  recordWith? names.length names

def uint64 (n : UInt64) : Json := .int n.toNat

def uint32 (n : UInt32) : Json := .int n.toNat

def uint16 (n : UInt16) : Json := .int n.toNat

end Json

namespace ServerSettings

def toJson (s : ServerSettings) : Json :=
  .obj [("host", .str s.host), ("port", uint16 s.port),
    ("max_body_bytes", uint64 s.maxBodyBytes)]

def ofRaw? : Decoder ServerSettings := fun raw => do
  let fields ← recordOfDefaults? ["host", "port", "max_body_bytes"] raw
  let base : ServerSettings := {}
  return {
    host := ← fields.defaulted "host" asText base.host
    port := ← fields.defaulted "port" asUInt16 base.port
    maxBodyBytes := ← fields.defaulted "max_body_bytes" asUInt64 base.maxBodyBytes }

end ServerSettings

namespace VerifierSettings

def toJson (s : VerifierSettings) : Json :=
  .obj [("jwk_set_url", ofOption .str s.jwkSetUrl), ("tolerance_secs", uint64 s.toleranceSecs),
    ("cache_ttl_secs", uint64 s.cacheTtlSecs),
    ("fetch_timeout_secs", uint64 s.fetchTimeoutSecs),
    ("min_refresh_interval_secs", uint64 s.minRefreshIntervalSecs),
    ("skip_verification", .bool s.skipVerification), ("nonce_check", .bool s.nonceCheck),
    ("nonce_ttl_secs", uint64 s.nonceTtlSecs)]

def fieldNames : List String :=
  ["jwk_set_url", "tolerance_secs", "cache_ttl_secs", "fetch_timeout_secs",
    "min_refresh_interval_secs", "skip_verification", "nonce_check", "nonce_ttl_secs"]

def ofRaw? : Decoder VerifierSettings := fun raw => do
  let fields ← recordOfDefaults? fieldNames raw
  let base : VerifierSettings := {}
  return {
    jwkSetUrl := ← fields.optional "jwk_set_url" asText
    toleranceSecs := ← fields.defaulted "tolerance_secs" asUInt64 base.toleranceSecs
    cacheTtlSecs := ← fields.defaulted "cache_ttl_secs" asUInt64 base.cacheTtlSecs
    fetchTimeoutSecs := ← fields.defaulted "fetch_timeout_secs" asUInt64 base.fetchTimeoutSecs
    minRefreshIntervalSecs :=
      ← fields.defaulted "min_refresh_interval_secs" asUInt64 base.minRefreshIntervalSecs
    skipVerification := ← fields.defaulted "skip_verification" asBool base.skipVerification
    nonceCheck := ← fields.defaulted "nonce_check" asBool base.nonceCheck
    nonceTtlSecs := ← fields.defaulted "nonce_ttl_secs" asUInt64 base.nonceTtlSecs }

def tolerance (s : VerifierSettings) : Duration := .ofSeconds s.toleranceSecs

def cacheTtl (s : VerifierSettings) : Duration := .ofSeconds s.cacheTtlSecs

def fetchTimeout (s : VerifierSettings) : Duration := .ofSeconds s.fetchTimeoutSecs

def minRefreshInterval (s : VerifierSettings) : Duration := .ofSeconds s.minRefreshIntervalSecs

def nonceTtl (s : VerifierSettings) : Duration := .ofSeconds s.nonceTtlSecs

end VerifierSettings

namespace ReplaySettings

def toJson (s : ReplaySettings) : Json :=
  .obj [("window_secs", uint64 s.windowSecs)]

def ofRaw? : Decoder ReplaySettings := fun raw => do
  let fields ← recordOfDefaults? ["window_secs"] raw
  let base : ReplaySettings := {}
  return { windowSecs := ← fields.defaulted "window_secs" asUInt64 base.windowSecs }

def window (s : ReplaySettings) : Duration := .ofSeconds s.windowSecs

end ReplaySettings

namespace QueueSettings

def toJson (s : QueueSettings) : Json :=
  .obj [("batch_size", uint64 s.batchSize), ("max_attempts", uint32 s.maxAttempts),
    ("base_delay_secs", uint64 s.baseDelaySecs),
    ("poll_interval_secs", uint64 s.pollIntervalSecs)]

def ofRaw? : Decoder QueueSettings := fun raw => do
  let fields ← recordOfDefaults?
    ["batch_size", "max_attempts", "base_delay_secs", "poll_interval_secs"] raw
  let base : QueueSettings := {}
  return {
    batchSize := ← fields.defaulted "batch_size" asUInt64 base.batchSize
    maxAttempts := ← fields.defaulted "max_attempts" asUInt32 base.maxAttempts
    baseDelaySecs := ← fields.defaulted "base_delay_secs" asUInt64 base.baseDelaySecs
    pollIntervalSecs := ← fields.defaulted "poll_interval_secs" asUInt64 base.pollIntervalSecs }

def baseDelay (s : QueueSettings) : Duration := .ofSeconds s.baseDelaySecs

def pollInterval (s : QueueSettings) : Duration := .ofSeconds s.pollIntervalSecs

end QueueSettings

namespace DeliverySettings

def toJson (s : DeliverySettings) : Json :=
  .obj [("url", ofOption .str s.url), ("timeout_secs", uint64 s.timeoutSecs),
    ("user_agent", .str s.userAgent)]

def ofRaw? : Decoder DeliverySettings := fun raw => do
  let fields ← recordOfDefaults? ["url", "timeout_secs", "user_agent"] raw
  let base : DeliverySettings := {}
  return {
    url := ← fields.optional "url" asText
    timeoutSecs := ← fields.defaulted "timeout_secs" asUInt64 base.timeoutSecs
    userAgent := ← fields.defaulted "user_agent" asText base.userAgent }

def timeout (s : DeliverySettings) : Duration := .ofSeconds s.timeoutSecs

end DeliverySettings

namespace AlertSettings

def toJson (s : AlertSettings) : Json :=
  .obj [("min_attempts", uint32 s.minAttempts),
    ("dedupe_window_secs", uint64 s.dedupeWindowSecs)]

def ofRaw? : Decoder AlertSettings := fun raw => do
  let fields ← recordOfDefaults? ["min_attempts", "dedupe_window_secs"] raw
  let base : AlertSettings := {}
  return {
    minAttempts := ← fields.defaulted "min_attempts" asUInt32 base.minAttempts
    dedupeWindowSecs := ← fields.defaulted "dedupe_window_secs" asUInt64 base.dedupeWindowSecs }

def dedupeWindow (s : AlertSettings) : Duration := .ofSeconds s.dedupeWindowSecs

end AlertSettings

namespace AuditSettings

def toJson (s : AuditSettings) : Json :=
  .obj [("file", ofOption .str s.file)]

def ofRaw? : Decoder AuditSettings := fun raw => do
  let fields ← recordOfDefaults? ["file"] raw
  return { file := ← fields.optional "file" asText }

end AuditSettings

namespace Settings

def toJson (s : Settings) : Json :=
  .obj [("server", s.server.toJson), ("verifier", s.verifier.toJson),
    ("replay", s.replay.toJson), ("queue", s.queue.toJson), ("delivery", s.delivery.toJson),
    ("alerts", s.alerts.toJson), ("audit", s.audit.toJson)]

def sectionNames : List String :=
  ["server", "verifier", "replay", "queue", "delivery", "alerts", "audit"]

def ofRaw? : Decoder Settings := fun raw => do
  let fields ← recordOfDefaults? sectionNames raw
  return {
    server := ← fields.defaulted "server" ServerSettings.ofRaw? {}
    verifier := ← fields.defaulted "verifier" VerifierSettings.ofRaw? {}
    replay := ← fields.defaulted "replay" ReplaySettings.ofRaw? {}
    queue := ← fields.defaulted "queue" QueueSettings.ofRaw? {}
    delivery := ← fields.defaulted "delivery" DeliverySettings.ofRaw? {}
    alerts := ← fields.defaulted "alerts" AlertSettings.ofRaw? {}
    audit := ← fields.defaulted "audit" AuditSettings.ofRaw? {} }

end Settings

end WebhookRelay
