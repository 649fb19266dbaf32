import WebhookRelay.Audit.Trail
import WebhookRelay.Config.Error
import WebhookRelay.Config.Settings
import WebhookRelay.Delivery.Sender
import WebhookRelay.Http.Endpoint
import WebhookRelay.Log.Line
import WebhookRelay.Worker

/-!
# The service

Settings decide how the parts of the service are made and with which stores it
starts. Making them fails where a URL or the user agent is not valid.
-/

set_option autoImplicit false

namespace WebhookRelay

inductive ServiceError where
  | config (error : ConfigError)
  | webhook (error : WebhookError)
  | io (reason : String)
  deriving DecidableEq, Repr

def ServiceError.message : ServiceError → String
  | .config error => s!"Configuration error: {error.message}"
  | .webhook error => s!"Webhook error: {error.message}"
  | .io reason => s!"IO error: {reason}"

structure Service where
  endpoint : Endpoint
  processor : Processor
  sender : Sender
  pollInterval : Duration
  cache : KeyCacheConfig
  /-- Where keys are published, if verifying needs any. -/
  source : Option KeySource
  /-- The file that keeps audit records, if there is one. -/
  auditFile : Option String

namespace Service

def keySource? (settings : VerifierSettings) : Except WebhookError (Option KeySource) :=
  match settings.jwkSetUrl.mapM Url.parse with
  | .error reason => .error (.invalidUrl reason)
  | .ok url => .ok (url.map fun url => .remote url settings.fetchTimeout)

def verifierOf (settings : VerifierSettings) : Verifier :=
  { tolerance := settings.tolerance
    skip := settings.skipVerification
    nonceTtl := settings.nonceTtl
    hasKeys := settings.jwkSetUrl.isSome
    nonces := if settings.nonceCheck then some .atomic else none }

def deliveryOf (settings : DeliverySettings) : DeliveryConfig :=
  { url := settings.url, timeout := settings.timeout, userAgent := settings.userAgent }

def processorOf (settings : Settings) : Processor :=
  { batchSize := settings.queue.batchSize.toNat
    backoff := {
      baseDelay := settings.queue.baseDelay
      maxAttempts := settings.queue.maxAttempts }
    alerts := some {
      minAttempts := settings.alerts.minAttempts
      dedupeWindow := settings.alerts.dedupeWindow } }

def endpointOf (settings : Settings) : Endpoint :=
  { receiver := {
      verifier := verifierOf settings.verifier
      replay := { window := settings.replay.window } }
    maxBodyBytes := settings.server.maxBodyBytes.toNat }

def build (settings : Settings) : Except ServiceError Service :=
  match keySource? settings.verifier with
  | .error error => .error (.webhook error)
  | .ok source =>
      match Sender.build (deliveryOf settings.delivery) with
      | .error error => .error (.webhook error)
      | .ok sender =>
          .ok {
            endpoint := endpointOf settings
            processor := processorOf settings
            sender
            pollInterval := settings.queue.pollInterval
            cache := {
              ttl := settings.verifier.cacheTtl
              minRefreshInterval := settings.verifier.minRefreshInterval }
            source
            auditFile := settings.audit.file }

def notice (level : LogLevel) (message : String) (fields : List (String × Json)) : LogLine :=
  { level, target := "orderhook::app", message, fields }

/-- What is logged while the parts are made, up to the first that cannot be made. -/
def notices (settings : Settings) : List LogLine :=
  let audit := settings.audit.file.map fun path =>
    notice .info "writing audit records to file" [("path", .str path)]
  let disabled := if settings.verifier.skipVerification then
      some (notice .warn "signature verification is DISABLED; every request will be accepted" [])
    else none
  let keys := settings.verifier.jwkSetUrl.map fun url =>
    notice .info "using remote key set" [("url", .str url)]
  let undelivered := if settings.delivery.url.isNone then
      some (notice .warn "no delivery URL configured; queued jobs will fail until one is set" [])
    else none
  let later := match keySource? settings.verifier with
    | .error _ => []
    | .ok _ => [keys, undelivered]
  (audit :: disabled :: later).filterMap id

/-- The world in which the service starts: empty stores before a network and a
directory of files. -/
def world (service : Service) (network : Network) (files : Directory) : World :=
  { keys := { config := service.cache }
    source := service.source.getD default
    network
    audit := { sinks := .memory {} :: (service.auditFile.map .file).toList, files } }

def worker (service : Service) : Worker :=
  { processor := service.processor
    deliver := service.sender.deliverer
    pollInterval := service.pollInterval }

end Service

/-- The parts that a receiver cannot do without, in the order in which they are
missed. -/
inductive ReceiverPart where
  | verifier
  | replayGuard
  | eventStore
  | queueStore
  | auditStore
  deriving DecidableEq, Repr

namespace ReceiverPart

def name : ReceiverPart → String
  | .verifier => "verifier"
  | .replayGuard => "replay guard"
  | .eventStore => "event store"
  | .queueStore => "queue store"
  | .auditStore => "audit store"

def all : List ReceiverPart :=
  [.verifier, .replayGuard, .eventStore, .queueStore, .auditStore]

def check (given : List ReceiverPart) : Except WebhookError Unit :=
  match all.find? fun part => !given.contains part with
  | none => .ok ()
  | some part => .error (.config s!"receiver needs a {part.name}")

end ReceiverPart

end WebhookRelay
