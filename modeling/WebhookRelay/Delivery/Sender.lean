import WebhookRelay.Processor

/-!
# Sending deliveries

A delivery is one POST of the payload with the event id in a header. An answer with
a success status is the only good outcome; retrying is the processor's work.
-/

set_option autoImplicit false

namespace WebhookRelay

def productName : String := "orderhook/0.1.0"

structure DeliveryConfig where
  url : Option String := none
  timeout : Duration := .ofSeconds 5
  userAgent : String := productName
  deriving DecidableEq, Repr

instance : Inhabited DeliveryConfig := ⟨{}⟩

inductive SendError where
  | missingDeliveryUrl
  | transport (reason : String)
  | timedOut
  | unexpectedStatus (status : Nat)
  deriving DecidableEq, Repr

def SendError.message : SendError → String
  | .missingDeliveryUrl => "delivery URL is not configured"
  | .transport reason => s!"transport error: {reason}"
  | .timedOut => "request timed out"
  | .unexpectedStatus status =>
      let status := Decimal.ofNat status
      s!"unexpected status {status}"

structure Sender where
  config : DeliveryConfig
  /-- The URL as it is requested, if one is configured. -/
  target : Option Url
  deriving DecidableEq, Repr

namespace Sender

def eventIdHeader : String := "X-Event-Id"

def build (config : DeliveryConfig) : Except WebhookError Sender :=
  match config.url.mapM Url.parse with
  | .error reason => .error (.invalidUrl reason)
  | .ok target =>
      if isHeaderValue config.userAgent then .ok { config, target }
      else .error (.http .builder)

def request (sender : Sender) (url : Url) (eventId payload : String) : OutgoingRequest :=
  { method := "POST"
    url
    headers := [
      ("Content-Type", "application/json"),
      (eventIdHeader, eventId),
      ("User-Agent", sender.config.userAgent)]
    body := Text.utf8 payload
    timeout := sender.config.timeout }

/-- Why a request cannot be made, if it cannot: a URL without a host is refused before
the headers are looked at, and one of another scheme after them. -/
def obstacle? (url : Url) (eventId : String) : Option String :=
  if url.hasHost && !isHeaderValue eventId then some HttpFailure.builder.message
  else if url.isHttp then none
  else some (HttpFailure.builder.messageFor url)

def send (sender : Sender) (eventId payload : String) : Attempt SendError Unit := do
  let some url := sender.target | throw .missingDeliveryUrl
  if let some reason := obstacle? url eventId then throw (.transport reason)
  match ← ExceptT.lift (Program.ask (.exchange (sender.request url eventId payload))) with
  | .failed => throw (.transport (HttpFailure.transport.messageFor url))
  | .timedOut => throw .timedOut
  | .response status _ => if isSuccess status then return () else throw (.unexpectedStatus status)

def deliverer (sender : Sender) : Deliverer := fun job =>
  (Attempt.asking (sender.send job.eventId job.payload).outcome
    fun error => QueueError.delivery error.message).outcome

end Sender

end WebhookRelay
