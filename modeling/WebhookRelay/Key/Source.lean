import WebhookRelay.Http.Exchange
import WebhookRelay.Key.Jwk

/-!
# Key sources

Where a key set is published: in the process, or behind a URL that answers with the
JSON form of the set.
-/

set_option autoImplicit false

namespace WebhookRelay

inductive KeySource where
  | held (published : JwkSet) (failing : Bool)
  | remote (url : Url) (timeout : Duration)

namespace KeySource

instance : Inhabited KeySource := ⟨.held {} false⟩

def publish (published : JwkSet) : KeySource → KeySource
  | .held _ failing => .held published failing
  | .remote url timeout => .remote url timeout

def setFailing (failing : Bool) : KeySource → KeySource
  | .held published _ => .held published failing
  | .remote url timeout => .remote url timeout

def fetchRemote (network : Network) (url : Url) (timeout : Duration) :
    Except WebhookError JwkSet :=
  if !url.isHttp then .error (.http .builder)
  else
    match network.exchange { method := "GET", url, headers := [], body := [], timeout } with
    | .failed => .error (.http .transport)
    | .timedOut => .error (.http .timeout)
    | .response status body =>
        if isSuccess status then
          match Json.readBytes? JwkSet.ofRaw? body with
          | some published => .ok published
          | none => .error (.http .decode)
        else .error (.keySetStatus status)

/-- A held set that fails answers as an overloaded server would. -/
def fetch (network : Network) : KeySource → Except WebhookError JwkSet
  | .held published failing => if failing then .error (.keySetStatus 503) else .ok published
  | .remote url timeout => fetchRemote network url timeout

end KeySource

end WebhookRelay
