import WebhookRelay.Url.Error
import WebhookRelay.Store.Directory
import WebhookRelay.Number.Decimal

/-!
# Configuration errors

Where a configuration cannot be found or read, where its text has no tree, where the
tree has not the shape of the settings, and where the settings contradict a rule.
-/

set_option autoImplicit false

namespace WebhookRelay

inductive FileFormat where
  | json
  | toml
  deriving DecidableEq, Repr

def FileFormat.title : FileFormat → String
  | .json => "JSON"
  | .toml => "TOML"

inductive BrokenRule where
  | empty
  | notUrl (reason : UrlError)
  | notHttp
  | notPort
  | below (least : Int)
  /-- A setting that may only be missing while another one is set. -/
  | requiredUnless (other : String)
  deriving DecidableEq, Repr

def BrokenRule.message (field : String) : BrokenRule → String
  | .empty => s!"{field} cannot be empty"
  | .notUrl reason => s!"{field} must be a valid URL: {reason.message}"
  | .notHttp => s!"{field} must use http or https"
  | .notPort => s!"{field} must be a valid port number"
  | .below least =>
      let least := Decimal.ofInt least
      s!"{field} must be at least {least}"
  | .requiredUnless other => s!"{field} is required unless {other} is set"

inductive ConfigError where
  | noExtension
  | unsupportedFormat (extension : String)
  | unreadable (path : String) (reason : FileError)
  | malformed (format : FileFormat)
  | wrongShape
  | brokenRule (field : String) (rule : BrokenRule)
  deriving DecidableEq, Repr

def ConfigError.message : ConfigError → String
  | .noExtension => "Failed to load configuration: No file extension found"
  | .unsupportedFormat extension =>
      s!"Failed to load configuration: Unsupported format: {extension}"
  | .unreadable path reason =>
      s!"Failed to load configuration: Failed to read {path}: {reason.message}"
  | .malformed format => s!"Failed to parse configuration: {format.title} parse error"
  | .wrongShape => "Deserialization error"
  | .brokenRule field rule => s!"Validation error: {rule.message field}"

end WebhookRelay
