import WebhookRelay.Config.Error
import WebhookRelay.Json.Text
import WebhookRelay.Text.LowerCase
import WebhookRelay.Toml

/-!
# Formats of configuration files

The extension of a file's name decides its format, in any case of letters. The last
point of a name starts its extension, unless nothing stands before it.
-/

set_option autoImplicit false

namespace WebhookRelay.FileFormat

def ofExtension? (extension : String) : Option FileFormat :=
  let lower := Text.lowerCase extension
  if lower = "json" then some .json
  else if lower = "toml" then some .toml
  else none

/-- The last name on a path; a step upwards is no name. -/
def fileName? (path : String) : Option String :=
  (Directory.pathOf path).getLast?.filter (· ≠ "..")

def extensionOf? (name : String) : Option String :=
  let behind := name.toList.reverse.takeWhile (· ≠ '.')
  match name.toList.reverse.dropWhile (· ≠ '.') with
  | _ :: _ :: _ => some (String.ofList behind.reverse)
  | _ => none

def ofPath (path : String) : Except ConfigError FileFormat :=
  match (fileName? path).bind extensionOf? with
  | none => .error .noExtension
  | some extension =>
      match ofExtension? extension with
      | none => .error (.unsupportedFormat extension)
      | some format => .ok format

def parse (format : FileFormat) (text : String) : Except ConfigError Json :=
  let tree := match format with
    | .json => Json.parse? text
    | .toml => Toml.parse? text
  match tree with
  | some tree => .ok tree
  | none => .error (.malformed format)

end WebhookRelay.FileFormat
