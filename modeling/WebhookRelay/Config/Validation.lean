import WebhookRelay.Config.Error
import WebhookRelay.Config.Settings
import WebhookRelay.Text.Blank
import WebhookRelay.Url

/-!
# Validation

The rules that settings obey. The first broken rule is the one that is reported.
-/

set_option autoImplicit false

namespace WebhookRelay.Validation

abbrev Check := Except ConfigError Unit

def breaking (field : String) (rule : BrokenRule) : Check :=
  .error (.brokenRule field rule)

def notEmpty (value field : String) : Check :=
  if Text.isBlankText value then breaking field .empty else .ok ()

def atLeast (least value : Int) (field : String) : Check :=
  if value < least then breaking field (.below least) else .ok ()

def isPort (value : UInt16) (field : String) : Check :=
  if value = 0 then breaking field .notPort else .ok ()

def isUrl (value field : String) : Check :=
  match Url.parse value with
  | .error reason => breaking field (.notUrl reason)
  | .ok url => if url.isHttp then .ok () else breaking field .notHttp

def isPositive (value : UInt64) (field : String) : Check :=
  atLeast 1 value.toNat field

def keySource (s : VerifierSettings) : Check :=
  if s.skipVerification then .ok ()
  else
    match s.jwkSetUrl with
    | some url => isUrl url "verifier.jwk_set_url"
    | none =>
        breaking "verifier.jwk_set_url" (.requiredUnless "verifier.skip_verification")

def ifPresent (value : Option String) (check : String → Check) : Check :=
  match value with
  | none => .ok ()
  | some value => check value

end Validation

def Settings.validate (s : Settings) : Except ConfigError Unit := do
  Validation.notEmpty s.server.host "server.host"
  Validation.isPort s.server.port "server.port"
  Validation.isPositive s.server.maxBodyBytes "server.max_body_bytes"
  Validation.keySource s.verifier
  Validation.isPositive s.verifier.cacheTtlSecs "verifier.cache_ttl_secs"
  Validation.isPositive s.verifier.fetchTimeoutSecs "verifier.fetch_timeout_secs"
  Validation.isPositive s.replay.windowSecs "replay.window_secs"
  Validation.isPositive s.queue.batchSize "queue.batch_size"
  Validation.atLeast 1 s.queue.maxAttempts.toNat "queue.max_attempts"
  Validation.isPositive s.queue.baseDelaySecs "queue.base_delay_secs"
  Validation.ifPresent s.delivery.url fun url => Validation.isUrl url "delivery.url"
  Validation.isPositive s.delivery.timeoutSecs "delivery.timeout_secs"
  Validation.ifPresent s.audit.file fun file => Validation.notEmpty file "audit.file"

/-! ## What valid settings are -/

theorem Except.of_bind_ok {ε α β : Type} {first : Except ε α} {next : α → Except ε β}
    {value : β} (ended : (first >>= next) = .ok value) :
    ∃ middle, first = .ok middle ∧ next middle = .ok value := by
  cases first with
  | error error => cases ended
  | ok middle => exact ⟨middle, rfl, ended⟩

def Url.IsWeb (text : String) : Prop :=
  ∃ url, Url.parse text = .ok url ∧ url.isHttp = true

namespace Validation

variable {field : String}

theorem notEmpty_ok_iff {value : String} :
    notEmpty value field = .ok () ↔ Text.isBlankText value = false := by
  simp [notEmpty, breaking]

theorem atLeast_ok_iff {least value : Int} :
    atLeast least value field = .ok () ↔ least ≤ value := by
  simp [atLeast, breaking]

theorem isPort_ok_iff {value : UInt16} : isPort value field = .ok () ↔ value ≠ 0 := by
  simp [isPort, breaking]

theorem isPositive_ok_iff {value : UInt64} :
    isPositive value field = .ok () ↔ 1 ≤ value.toNat := by
  rw [isPositive, atLeast_ok_iff]
  omega

theorem isUrl_ok_iff {value : String} : isUrl value field = .ok () ↔ Url.IsWeb value := by
  unfold isUrl Url.IsWeb
  split
  · rename_i reason refused
    simp [refused, breaking]
  · rename_i url parsed
    simp [parsed, breaking]

theorem ifPresent_ok_iff {value : Option String} {check : String → Check} :
    ifPresent value check = .ok () ↔ ∀ given ∈ value, check given = .ok () := by
  cases value <;> simp [ifPresent]

theorem keySource_ok_iff {settings : VerifierSettings} : keySource settings = .ok () ↔
    (settings.skipVerification = false → ∃ url ∈ settings.jwkSetUrl, Url.IsWeb url) := by
  unfold keySource
  cases settings.skipVerification with
  | true => simp
  | false =>
      cases settings.jwkSetUrl with
      | none => simp [breaking]
      | some url => simp [isUrl_ok_iff]

end Validation

/-- The rules that settings obey, the checks of which are made in this order. -/
structure Settings.Valid (s : Settings) : Prop where
  host : Text.isBlankText s.server.host = false
  port : s.server.port ≠ 0
  maxBodyBytes : 1 ≤ s.server.maxBodyBytes.toNat
  keySource : s.verifier.skipVerification = false → ∃ url ∈ s.verifier.jwkSetUrl, Url.IsWeb url
  cacheTtl : 1 ≤ s.verifier.cacheTtlSecs.toNat
  fetchTimeout : 1 ≤ s.verifier.fetchTimeoutSecs.toNat
  window : 1 ≤ s.replay.windowSecs.toNat
  batchSize : 1 ≤ s.queue.batchSize.toNat
  maxAttempts : 1 ≤ s.queue.maxAttempts.toNat
  baseDelay : 1 ≤ s.queue.baseDelaySecs.toNat
  deliveryUrl : ∀ url ∈ s.delivery.url, Url.IsWeb url
  deliveryTimeout : 1 ≤ s.delivery.timeoutSecs.toNat
  auditFile : ∀ file ∈ s.audit.file, Text.isBlankText file = false

/-- Settings pass if they obey all the rules. -/
theorem Settings.validate_ok_iff {settings : Settings} :
    settings.validate = .ok () ↔ settings.Valid := by
  have step (check rest : Validation.Check) : (check >>= fun _ => rest) = .ok () ↔
      check = .ok () ∧ rest = .ok () := by
    cases check <;> simp [bind, Except.bind]
  have attempts : (1 : Int) ≤ settings.queue.maxAttempts.toNat ↔
      1 ≤ settings.queue.maxAttempts.toNat := by omega
  simp only [validate, step, Validation.notEmpty_ok_iff, Validation.isPort_ok_iff,
    Validation.isPositive_ok_iff, Validation.keySource_ok_iff, Validation.atLeast_ok_iff,
    Validation.ifPresent_ok_iff, Validation.isUrl_ok_iff, attempts]
  constructor
  · rintro ⟨host, port, body, keys, ttl, fetch, window, batch, most, delay, url, timeout, file⟩
    exact ⟨host, port, body, keys, ttl, fetch, window, batch, most, delay, url, timeout, file⟩
  · rintro ⟨host, port, body, keys, ttl, fetch, window, batch, most, delay, url, timeout, file⟩
    exact ⟨host, port, body, keys, ttl, fetch, window, batch, most, delay, url, timeout, file⟩

end WebhookRelay
