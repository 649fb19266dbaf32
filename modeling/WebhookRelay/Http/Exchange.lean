import WebhookRelay.Text.Bytes
import WebhookRelay.Time.Duration
import WebhookRelay.Url

/-!
# Outgoing requests

One request and what comes of it. The network is a function from requests to
outcomes, so that a client is a pure function of it.
-/

set_option autoImplicit false

namespace WebhookRelay

structure OutgoingRequest where
  method : String
  url : Url
  headers : List (String × String)
  body : Bytes
  timeout : Duration

inductive Exchange where
  | response (status : Nat) (body : Bytes)
  | timedOut
  | failed

structure Network where
  exchange : OutgoingRequest → Exchange

def Network.unreachable : Network := ⟨fun _ => .failed⟩

instance : Inhabited Network := ⟨.unreachable⟩

def isSuccess (status : Nat) : Bool :=
  200 ≤ status && status < 300

/-- Characters that a header value may hold: no control character but the tab. -/
def isHeaderChar (c : Char) : Bool :=
  c = '\t' || (0x20 ≤ c.toNat && c.toNat ≠ 0x7F)

def isHeaderValue (text : String) : Bool :=
  text.toList.all isHeaderChar

inductive HttpFailure where
  | builder
  | timeout
  | transport
  | decode
  deriving DecidableEq, Repr

inductive WebhookError where
  | http (failure : HttpFailure)
  | invalidUrl (reason : UrlError)
  | keySetStatus (status : Nat)
  | config (reason : String)
  deriving DecidableEq, Repr

def HttpFailure.message : HttpFailure → String
  | .builder => "builder error"
  | .timeout => "operation timed out"
  | .transport => "error sending request"
  | .decode => "error decoding response body"

/-- The message about a request to a URL, which is shown without secrets. -/
def HttpFailure.messageFor (failure : HttpFailure) (url : Url) : String :=
  failure.message ++ " for url (" ++ url.anonymous.render ++ ")"

def WebhookError.message : WebhookError → String
  | .http failure => s!"HTTP request failed: {failure.message}"
  | .invalidUrl reason => s!"Invalid URL: {reason.message}"
  | .keySetStatus status =>
      let status := Decimal.ofNat status
      s!"Key-set fetch returned status {status}"
  | .config reason => s!"Configuration error: {reason}"

end WebhookRelay
