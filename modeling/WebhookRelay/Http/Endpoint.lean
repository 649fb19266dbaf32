import WebhookRelay.Json.Render
import WebhookRelay.Receiver

/-!
# The endpoint

Webhooks come as POST requests to one path; another path tells that the service is
up. The body may come in pieces and is read up to a limit. Every answer is a JSON
object.
-/

set_option autoImplicit false

namespace WebhookRelay

structure HttpRequest where
  method : String
  /-- The target as it stands in the request line. -/
  target : String
  headers : List (String × Bytes)
  /-- The pieces of the body. -/
  chunks : List Bytes
  /-- Whether the body breaks off after them. -/
  broken : Bool := false

structure HttpResponse where
  status : Nat
  allow : Option String := none
  body : Json
  deriving Repr

def HttpResponse.contentType : String := "application/json"

/-- The value of a header as a text: the first one, of visible ASCII characters, tabs
and spaces, without its surrounding blanks; an empty one counts as none. -/
def headerText? (headers : List (String × Bytes)) (name : String) : Option String := do
  let lower (text : String) : List Char := text.toList.map Char.toLower
  let (_, value) ← headers.find? fun header => lower header.1 = lower name
  if value.all fun byte => byte = 9 || (32 ≤ byte && byte < 127) then
    let text := Text.trimChars (value.map fun byte => Char.ofNat byte.toNat)
    if text.isEmpty then none else some (String.ofList text)
  else none

namespace SignatureClaim

def signatureHeader : String := "UCP-Signature"

def keyIdHeader : String := "UCP-Key-Id"

def ofHeaders (headers : List (String × Bytes)) : SignatureClaim :=
  { signature := headerText? headers signatureHeader
    keyId := headerText? headers keyIdHeader }

end SignatureClaim

structure Endpoint where
  receiver : Receiver := {}
  maxBodyBytes : Nat := 1048576
  deriving DecidableEq, Repr

namespace Endpoint

instance : Inhabited Endpoint := ⟨{}⟩

def webhookPath : String := "/ucp/v1/order-webhooks"

def healthPath : String := "/healthz"

def behindAuthority? : List Char → Option (List Char)
  | [] => none
  | ':' :: '/' :: '/' :: rest => some (rest.dropWhile fun c => c ≠ '/' ∧ c ≠ '?' ∧ c ≠ '#')
  | _ :: rest => behindAuthority? rest

/-- The path of a request target, which may be a whole URL. -/
def pathOf (target : String) : String :=
  let path (chars : List Char) : List Char := chars.takeWhile fun c => c ≠ '?' ∧ c ≠ '#'
  let chars := target.toList
  if chars.head? = some '/' then String.ofList (path chars)
  else
    match behindAuthority? chars with
    | some rest => if (path rest).isEmpty then "/" else String.ofList (path rest)
    | none => target

/-- The body of a request, unless it breaks off or exceeds the limit. -/
def readBody? (limit : Nat) (request : HttpRequest) : Option Bytes :=
  let body := request.chunks.flatten
  if request.broken ∨ limit < body.length then none else some body

def ok : HttpResponse := { status := 200, body := .obj [("status", .str "ok")] }

def notFound : HttpResponse := { status := 404, body := .obj [("error", .str "not_found")] }

def methodNotAllowed (allowed : String) : HttpResponse :=
  { status := 405, allow := some allowed, body := .obj [("error", .str "method_not_allowed")] }

def refused (error : ReceiveError) : HttpResponse :=
  { status := error.status, body := error.body }

def handle (endpoint : Endpoint) (now : Timestamp) (request : HttpRequest) :
    Program HttpResponse :=
  let path := pathOf request.target
  if path = healthPath then
    return if request.method = "GET" then ok else methodNotAllowed "GET"
  else if path = webhookPath then
    if request.method = "POST" then
      match readBody? endpoint.maxBodyBytes request with
      | none => return refused .invalidBody
      | some body => do
          let claim := SignatureClaim.ofHeaders request.headers
          match ← (endpoint.receiver.receive { now, claim, body }).outcome with
          | .ok _ => return ok
          | .error error => return refused error
    else return methodNotAllowed "POST"
  else return notFound

end Endpoint

end WebhookRelay
