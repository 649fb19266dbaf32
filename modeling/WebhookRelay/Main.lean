import WebhookRelay.CommandLine
import WebhookRelay.CommandLine.Environment

/-!
# The program

Hands the arguments, the environment and the files of the working directory to the
command line, and writes what it leaves behind.
-/

set_option autoImplicit false

namespace WebhookRelay.CommandLine

def blockPath : String := "/proc/self/environ"

def readEnvironment : IO (List (String × String)) := do
  try return Environment.ofBlock (← IO.FS.readBinFile blockPath).toList
  catch _ => return []

def touch (path : String) : IO Unit := do
  try discard (IO.FS.Handle.mk path .append)
  catch _ => return

def directory (names : List String) : IO Directory :=
  names.foldlM
    (fun files (name : String) => do
      try return files.write name (← IO.FS.readBinFile name).toList
      catch _ => return files)
    {}

def writeLog (settings : LogSettings) (lines : List LogLine) : IO Unit := do
  let stream ← match settings.output with
    | .stdout => IO.getStdout
    | .stderr => IO.getStderr
    | .file path => IO.FS.Stream.ofHandle <$> IO.FS.Handle.mk path .append
  for line in lines do
    stream.putStrLn (line.render settings.format)

def report (outcome : CommandOutcome) : IO UInt32 := do
  unless outcome.log.isEmpty do
    writeLog outcome.logSettings outcome.log
  (← IO.getStdout).putStr outcome.stdout
  (← IO.getStderr).putStr outcome.stderr
  if outcome.serving.isSome then
    (← IO.getStderr).putStr "orderhook: no network to serve on\n"
    return 1
  return .ofNat outcome.exitCode

def runHere (arguments : List String) : IO UInt32 := do
  let env ← readEnvironment
  let names := fileNames arguments env
  match (LogSettings.ofLookup fun name => env.lookup name).output with
  | .file path => if names.contains path then touch path
  | _ => pure ()
  report (run arguments env (← directory names))

end WebhookRelay.CommandLine

def main (arguments : List String) : IO UInt32 :=
  WebhookRelay.CommandLine.runHere arguments
