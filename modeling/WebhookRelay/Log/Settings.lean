import WebhookRelay.Json.Value
import WebhookRelay.Store.Directory
import WebhookRelay.Text.Blank
import WebhookRelay.Text.LowerCase

/-!
# Log settings

How much is logged, in which form and to which place. The environment may set each of
them; a filter of its own takes precedence over the level, and the debug switch only
ever makes the log more detailed.
-/

set_option autoImplicit false

namespace WebhookRelay

inductive LogLevel where
  | trace
  | debug
  | info
  | warn
  | error
  deriving DecidableEq, Repr

namespace LogLevel

def name : LogLevel → String
  | .trace => "trace"
  | .debug => "debug"
  | .info => "info"
  | .warn => "warn"
  | .error => "error"

def weight : LogLevel → Nat
  | .trace => 0
  | .debug => 1
  | .info => 2
  | .warn => 3
  | .error => 4

def names : List (String × LogLevel) :=
  [("trace", .trace), ("debug", .debug), ("info", .info), ("warn", .warn),
    ("warning", .warn), ("error", .error)]

def parse? (text : String) : Option LogLevel :=
  names.lookup (Text.lowerCase (Text.trim text))

end LogLevel

inductive LogFormat where
  | json
  | pretty
  | compact
  | plain
  deriving DecidableEq, Repr

namespace LogFormat

def name : LogFormat → String
  | .json => "json"
  | .pretty => "pretty"
  | .compact => "compact"
  | .plain => "plain"

def names : List (String × LogFormat) :=
  [("json", .json), ("pretty", .pretty), ("compact", .compact), ("plain", .plain),
    ("text", .plain)]

def parse? (text : String) : Option LogFormat :=
  names.lookup (Text.lowerCase (Text.trim text))

end LogFormat

inductive LogOutput where
  | stdout
  | stderr
  | file (path : String)
  deriving DecidableEq, Repr

structure LogSettings where
  level : LogLevel := .info
  format : LogFormat := .json
  output : LogOutput := .stdout
  targets : Bool := true
  threadIds : Bool := false
  /-- A filter that takes precedence over the level. -/
  filter : Option String := none
  deriving DecidableEq, Repr

namespace LogSettings

instance : Inhabited LogSettings := ⟨{}⟩

def isOn (value : String) : Bool :=
  value = "1" || value.toList.map Char.toLower = "true".toList

/-- A level, unless debugging asks for a more detailed one. -/
def atLeastDebug (debugging : Bool) (level : LogLevel) : LogLevel :=
  if debugging ∧ LogLevel.debug.weight < level.weight then .debug else level

def ofLookup (lookup : String → Option String) : LogSettings :=
  let base : LogSettings := {}
  let debugging := (lookup "ORDERHOOK_DEBUG").any isOn
  let level := ((lookup "ORDERHOOK_LOG_LEVEL").bind LogLevel.parse?).getD base.level
  { base with
    level := atLeastDebug debugging level
    format := ((lookup "ORDERHOOK_LOG_FORMAT").bind LogFormat.parse?).getD base.format
    output := match lookup "ORDERHOOK_LOG_FILE" with
      | none => base.output
      | some path => if path.isEmpty then base.output else .file path
    filter := (lookup "RUST_LOG").filter fun text => !text.isEmpty }

def directive (settings : LogSettings) : String :=
  settings.filter.getD settings.level.name

def writesTo (settings : LogSettings) (name : String) : Bool :=
  match settings.output with
  | .file path => Directory.pathOf path = Directory.pathOf name
  | _ => false

def outputJson : LogOutput → Json
  | .stdout => .str "stdout"
  | .stderr => .str "stderr"
  | .file path => .obj [("file", .str path)]

def toJson (settings : LogSettings) : Json :=
  .obj [("level", .str settings.level.name), ("format", .str settings.format.name),
    ("output", outputJson settings.output), ("targets", .bool settings.targets),
    ("thread_ids", .bool settings.threadIds),
    ("env_filter", .ofOption .str settings.filter), ("directive", .str settings.directive)]

end LogSettings

end WebhookRelay
