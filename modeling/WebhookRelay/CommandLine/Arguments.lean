import WebhookRelay.Text.Split

/-!
# Command-line arguments

There are two commands: one serves, the other checks a configuration. Both take the
path of a settings file, which the environment may name instead. Every option comes at
most once, and a value is never empty.
-/

set_option autoImplicit false

namespace WebhookRelay

inductive Command where
  | serve (config : Option String) (withWorker : Bool)
  | checkConfig (config : Option String)
  deriving DecidableEq, Repr

inductive Invocation where
  | run (command : Command)
  | version (name : String)
  | help
  | misuse
  deriving DecidableEq, Repr

namespace Invocation

def programName : String := "orderhook"

structure Options where
  config : Option String := none
  noWorker : Bool := false
  deriving DecidableEq, Repr

inductive Verb where
  | serve
  | checkConfig
  deriving DecidableEq, Repr

def Verb.name : Verb → String
  | .serve => "serve"
  | .checkConfig => "check-config"

def Verb.ofName? (name : String) : Option Verb :=
  if name = "serve" ∨ name = "s" then some .serve
  else if name = "check-config" then some .checkConfig
  else none

def Verb.command (verb : Verb) (options : Options) : Command :=
  match verb with
  | .serve => .serve options.config !options.noWorker
  | .checkConfig => .checkConfig options.config

inductive Argument where
  | config
  | configIs (value : String)
  | noWorker
  | version
  | help
  | separator
  | other
  deriving DecidableEq, Repr

def attached (value : List Char) : String :=
  match value with
  | '=' :: rest => String.ofList rest
  | rest => String.ofList rest

def argumentOf (text : String) : Argument :=
  match text.toList with
  | ['-', '-'] => .separator
  | ['-', 'c'] => .config
  | '-' :: 'c' :: value => .configIs (attached value)
  | '-' :: 'V' :: _ => .version
  | '-' :: 'h' :: _ => .help
  | _ =>
      if text = "--config" then .config
      else if text = "--no-worker" then .noWorker
      else if text = "--version" then .version
      else if text = "--help" then .help
      else if text.toList.take 9 = "--config=".toList then
        .configIs (String.ofList (text.toList.drop 9))
      else .other

def isValue (text : String) : Bool :=
  text = "-" || text.toList.head? ≠ some '-'

def setConfig? (options : Options) (value : String) : Option Options :=
  if options.config.isSome ∨ value.isEmpty then none
  else some { options with config := some value }

def setNoWorker? (verb : Verb) (options : Options) : Option Options :=
  if verb = .serve ∧ !options.noWorker then some { options with noWorker := true } else none

/-- The end of the arguments: a settings file may still come from the environment. -/
def finish (verb : Verb) (options : Options) (fromEnvironment : Option String) : Invocation :=
  match options.config, fromEnvironment with
  | none, some value =>
      match setConfig? options value with
      | some options => .run (verb.command options)
      | none => .misuse
  | _, _ => .run (verb.command options)

/-- Reads the options of a command one by one; `awaiting` says that the value of an
option comes next. -/
def readOptions (verb : Verb) (fromEnvironment : Option String) :
    (awaiting : Bool) → Options → List String → Invocation
  | true, _, [] => .misuse
  | true, options, text :: rest =>
      match if isValue text then setConfig? options text else none with
      | some options => readOptions verb fromEnvironment false options rest
      | none => .misuse
  | false, options, [] => finish verb options fromEnvironment
  | false, options, text :: rest =>
      match argumentOf text with
      | .config => readOptions verb fromEnvironment true options rest
      | .configIs value =>
          match setConfig? options value with
          | some options => readOptions verb fromEnvironment false options rest
          | none => .misuse
      | .noWorker =>
          match setNoWorker? verb options with
          | some options => readOptions verb fromEnvironment false options rest
          | none => .misuse
      | .separator => if rest.isEmpty then finish verb options fromEnvironment else .misuse
      | .version => .version s!"{programName}-{verb.name}"
      | .help => .help
      | .other => .misuse

def ofArguments (arguments : List String) (fromEnvironment : Option String) : Invocation :=
  match arguments with
  | [] => .misuse
  | first :: rest =>
      match Verb.ofName? first with
      | some verb => readOptions verb fromEnvironment false {} rest
      | none =>
          match argumentOf first with
          | .version => .version programName
          | .help => .help
          | _ =>
              if first ≠ "help" then .misuse
              else
                match rest with
                | [] => .help
                | name :: _ =>
                    if (Verb.ofName? name).isSome ∨ name = "help" then .help else .misuse

end Invocation

end WebhookRelay
