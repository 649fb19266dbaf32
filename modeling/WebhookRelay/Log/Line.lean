import WebhookRelay.Json.Render
import WebhookRelay.Log.Filter

/-!
# Log lines

A line has a level, a target, a message and further fields. In the JSON form the
message is one of the fields.
-/

set_option autoImplicit false

namespace WebhookRelay

structure LogLine where
  level : LogLevel
  target : String
  message : String
  fields : List (String × Json) := []

namespace LogLine

def levelName : LogLevel → String
  | .trace => "TRACE"
  | .debug => "DEBUG"
  | .info => "INFO"
  | .warn => "WARN"
  | .error => "ERROR"

def fieldsJson (line : LogLine) : Json :=
  .obj (("message", .str line.message) :: line.fields)

def toJson (line : LogLine) : Json :=
  .obj [("level", .str (levelName line.level)), ("fields", line.fieldsJson),
    ("target", .str line.target)]

def text (line : LogLine) : String :=
  let fields := line.fields.map fun field => s!" {field.1}=" ++ Json.render field.2
  levelName line.level ++ s!" {line.target}: {line.message}" ++ String.join fields

def render (format : LogFormat) (line : LogLine) : String :=
  match format with
  | .json => Json.render line.toJson
  | _ => line.text

def passing (filter : LogFilter) (lines : List LogLine) : List LogLine :=
  lines.filter fun line => filter.passes line.target line.level

end LogLine

end WebhookRelay
