import WebhookRelay.CommandLine.Arguments
import WebhookRelay.Config.EnvFile
import WebhookRelay.Config.Loading
import WebhookRelay.Log.Line
import WebhookRelay.Service

/-!
# The command line

A command is a function of its arguments, the environment and the files of the working
directory. An environment file there adds variables after the log settings are taken
from the environment itself.
-/

set_option autoImplicit false

namespace WebhookRelay

structure CommandOutcome where
  exitCode : Nat := 0
  stdout : String := ""
  stderr : String := ""
  /-- The lines that the log takes, and where they go. -/
  log : List LogLine := []
  logSettings : LogSettings := {}
  /-- The service that goes on to run, with or without a worker. -/
  serving : Option (Service × Bool) := none

namespace CommandLine

def version : String := "0.1.0"

def usage : String :=
  "Usage: orderhook <serve [--no-worker] | check-config> [--config <CONFIG>]\n"

def configVariable : String := "ORDERHOOK_CONFIG"

def envFileName : String := ".env"

def target : String := "orderhook::cli"

def extended (files : Directory) (env : List (String × String)) :
    List (String × String) :=
  match files.read envFileName with
  | .ok content => EnvFile.load env content
  | .error _ => env

def failed (error : ServiceError) : CommandOutcome :=
  { exitCode := 1
    stderr := s!"orderhook: {error.message}\n"
    log := [{
      level := .error
      target
      message := "exiting"
      fields := [("error", .str error.message)] }] }

def checked (settings : Settings) : CommandOutcome :=
  { stdout := "configuration is valid\n"
    log := [{
      level := .info
      target
      message := "configuration is valid"
      fields := [
        ("port", .int settings.server.port.toNat),
        ("skip_verification", .bool settings.verifier.skipVerification),
        ("delivery_url", .str (settings.delivery.url.getD "-"))] }] }

def started (settings : Settings) (withWorker : Bool) : CommandOutcome :=
  let notices := Service.notices settings
  match Service.build settings with
  | .error error =>
      let outcome := failed error
      { outcome with log := notices ++ outcome.log }
  | .ok service => { log := notices, serving := some (service, withWorker) }

def loaded (files : Directory) (env : List (String × String)) (path : Option String) :
    Except ConfigError Settings :=
  Settings.load files path (extended files env)

def perform (files : Directory) (env : List (String × String)) :
    Command → CommandOutcome
  | .serve path withWorker =>
      match loaded files env path with
      | .error error => failed (.config error)
      | .ok settings => started settings withWorker
  | .checkConfig path =>
      match loaded files env path with
      | .error error => failed (.config error)
      | .ok settings => checked settings

def openLog (files : Directory) : LogOutput → Except String Unit
  | .file path =>
      match files.append path [] with
      | .ok _ => .ok ()
      | .error reason =>
          .error s!"orderhook-log: failed to open log file {path}: {reason.message}\n"
  | _ => .ok ()

def logged (files : Directory) (settings : LogSettings) (outcome : CommandOutcome) :
    CommandOutcome :=
  match openLog files settings.output with
  | .ok () =>
      { outcome with
        log := LogLine.passing (LogFilter.ofSettings settings) outcome.log
        logSettings := settings }
  | .error text =>
      { outcome with log := [], stderr := text ++ outcome.stderr, logSettings := settings }

def run (arguments : List String) (env : List (String × String)) (files : Directory) :
    CommandOutcome :=
  match Invocation.ofArguments arguments (env.lookup configVariable) with
  | .misuse => { exitCode := 2, stderr := usage }
  | .help => { stdout := usage }
  | .version name => { stdout := s!"{name} {version}\n" }
  | .run command =>
      logged files (LogSettings.ofLookup fun name => env.lookup name) (perform files env command)

def fileNames (arguments : List String) (env : List (String × String)) : List String :=
  match Invocation.ofArguments arguments (env.lookup configVariable) with
  | .run command =>
      let config := match command with
        | .serve path _ => path
        | .checkConfig path => path
      let log := match (LogSettings.ofLookup fun name => env.lookup name).output with
        | .file path => some path
        | _ => none
      envFileName :: config.toList ++ log.toList
  | _ => []

end CommandLine

end WebhookRelay
