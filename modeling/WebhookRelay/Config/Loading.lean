import WebhookRelay.Config.FileFormat
import WebhookRelay.Config.Overlay
import WebhookRelay.Config.Validation

/-!
# Loading settings

Settings come from a file, if there is one, under the overrides of the environment.
Only settings that obey all rules are loaded.
-/

set_option autoImplicit false

namespace WebhookRelay.Settings

def readTree (files : Directory) (path : String) : Except ConfigError Json := do
  let format ← FileFormat.ofPath path
  match files.readText path with
  | .error reason => .error (.unreadable path reason)
  | .ok text => format.parse text

def ofTree (tree : Json) : Except ConfigError Settings :=
  match Json.read? ofRaw? tree with
  | some settings => .ok settings
  | none => .error .wrongShape

def load (files : Directory) (path : Option String) (env : List (String × String)) :
    Except ConfigError Settings := do
  let base ← match path with
    | some path => readTree files path
    | none => .ok (.obj [])
  let tree := Overlay.apply base (Overlay.overrides Overlay.defaultMark env)
  let settings ← ofTree tree
  settings.validate
  return settings

end WebhookRelay.Settings
