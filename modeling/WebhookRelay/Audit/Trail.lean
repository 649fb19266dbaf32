import WebhookRelay.Audit.Error
import WebhookRelay.Audit.Record
import WebhookRelay.Text.Split

/-!
# Audit trails

A trail sends every record to its sinks in order and stops at the first that fails;
it lists from the first one, newest first. A sink keeps records in memory, where it
may be told to fail and may refuse to list, or appends them to a file, one JSON text
a line.
-/

set_option autoImplicit false

namespace WebhookRelay

/-- Records in memory. `refusals` says for each of the next calls whether it fails. -/
structure AuditMemory where
  records : List AuditRecord := []
  refusals : List (Option AuditError) := []
  listable : Bool := true

inductive AuditSink where
  | memory (state : AuditMemory)
  | file (name : String)

namespace AuditSink

def create (sink : AuditSink) (files : Directory) (record : AuditRecord) :
    Except AuditError Unit × AuditSink × Directory :=
  match sink with
  | .memory state =>
      match state.refusals with
      | some error :: rest => (.error error, .memory { state with refusals := rest }, files)
      | _ =>
          let state := { state with
            records := state.records ++ [record]
            refusals := state.refusals.drop 1 }
          (.ok (), .memory state, files)
  | .file name =>
      let line := Json.render record.toJson ++ "\n"
      match files.append name (Text.utf8 line) with
      | .ok files => (.ok (), sink, files)
      | .error error => (.error (.io error), sink, files)

def readLine (line : List Char) : Except AuditError AuditRecord :=
  match Json.readText? AuditRecord.ofRaw? (String.ofList line) with
  | some record => .ok record
  | none => .error (.serialization "invalid record")

/-- The last `limit` records of a text, the last one first. Blank lines are skipped. -/
def readLast (text : String) (limit : Nat) : Except AuditError (List AuditRecord) :=
  (((Text.splitOn '\n' text.toList).reverse.filter fun line => !line.all Text.isBlank).take limit).mapM
    readLine

def list (sink : AuditSink) (files : Directory) (limit : Nat) :
    Except AuditError (List AuditRecord) :=
  match sink with
  | .memory state =>
      if state.listable then .ok (state.records.reverse.take limit) else .error .notSupported
  | .file name =>
      match files.readText name with
      | .ok text => readLast text limit
      | .error .notFound => .ok []
      | .error error => .error (.io error)

def refuse (plan : List (Option AuditError)) : AuditSink → AuditSink
  | .memory state => .memory { state with refusals := state.refusals ++ plan }
  | .file name => .file name

def memorySize : AuditSink → Nat
  | .memory state => state.records.length
  | .file _ => 0

end AuditSink

structure AuditTrail where
  sinks : List AuditSink := [.memory {}]
  files : Directory := {}

namespace AuditTrail

instance : Inhabited AuditTrail := ⟨{}⟩

def createIn (record : AuditRecord) :
    List AuditSink → Directory → Except AuditError Unit × List AuditSink × Directory
  | [], files => (.ok (), [], files)
  | sink :: rest, files =>
      match sink.create files record with
      | (.error error, sink, files) => (.error error, sink :: rest, files)
      | (.ok (), sink, files) =>
          let (result, rest, files) := createIn record rest files
          (result, sink :: rest, files)

def create (trail : AuditTrail) (record : AuditRecord) : Except AuditError Unit × AuditTrail :=
  let (result, sinks, files) := createIn record trail.sinks trail.files
  (result, { sinks, files })

def list (trail : AuditTrail) (limit : Nat) : Except AuditError (List AuditRecord) :=
  match trail.sinks with
  | [] => .ok []
  | sink :: _ => sink.list trail.files limit

def onSink {α : Type} (trail : AuditTrail) (index : Nat) (action : AuditTrail → α × AuditTrail) :
    α × AuditTrail :=
  let (result, part) := action { trail with sinks := (trail.sinks.drop index).take 1 }
  (result,
    { sinks := trail.sinks.take index ++ part.sinks ++ trail.sinks.drop (index + 1)
      files := part.files })

def records (trail : AuditTrail) : List AuditRecord :=
  match trail.sinks with
  | .memory state :: _ => state.records
  | _ => []

end AuditTrail

end WebhookRelay
