import WebhookRelay.Store.Directory

/-!
# Audit errors

Failures of the audit and alert stores.
-/

set_option autoImplicit false

namespace WebhookRelay

inductive AuditError where
  | io (reason : FileError)
  | serialization (reason : String)
  | notSupported
  | store (reason : String)
  deriving DecidableEq, Repr

def AuditError.message : AuditError → String
  | .io reason => s!"IO error: {reason.message}"
  | .serialization reason => s!"Serialization error: {reason}"
  | .notSupported => "Operation not supported"
  | .store reason => s!"Store error: {reason}"

end WebhookRelay
