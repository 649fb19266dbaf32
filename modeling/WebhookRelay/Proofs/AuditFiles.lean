import WebhookRelay.Audit.Trail
import WebhookRelay.Proofs.Formats
import WebhookRelay.Proofs.TextParts
import WebhookRelay.Proofs.WrittenValues

/-!
# Audit files

Every record is one line of its file: the text of a record holds no line break and is never
blank.  So the lines of a file are its records in the order in which they were appended, with
the times that their written forms show, and listing them agrees with a list kept in memory if
a clock can show these times.
-/

set_option autoImplicit false

namespace WebhookRelay

open Json

/-! ## Lines -/

namespace Text

theorem splitOn_lines {separator : Char} {lines : List (List Char)}
    (whole : ∀ line ∈ lines, separator ∉ line) :
    splitOn separator (lines.flatMap fun line => line ++ [separator]) = lines ++ [[]] := by
  induction lines with
  | nil => rfl
  | cons line lines ih =>
      have tail := ih fun other inside => whole other (List.mem_cons_of_mem _ inside)
      rw [List.flatMap_cons, List.append_assoc, List.singleton_append,
        splitOn_append (whole line (List.mem_cons_self ..)), tail, List.cons_append]

theorem utf8_append (a b : String) : utf8 (a ++ b) = utf8 a ++ utf8 b := by
  simp [utf8]

end Text

/-! ## Contents of a directory -/

namespace Directory

@[simp] theorem content?_put (dir : Directory) (path : List String) (content : Bytes) :
    (dir.put path content).content? path = some content := by
  simp [put, content?]

/-- A file that is missing has no content, and no directory has its name. -/
theorem content?_of_missing {dir : Directory} {name : String}
    (missing : dir.read name = .error .notFound) :
    dir.content? (pathOf name) = none ∧ dir.isDirectory (pathOf name) = false := by
  cases content : dir.content? (pathOf name) with
  | some old => simp [read, content] at missing
  | none =>
      refine ⟨rfl, ?_⟩
      cases directory : dir.isDirectory (pathOf name) with
      | true => simp [read, content, directory] at missing
      | false => rfl

theorem readText_of_content {dir : Directory} {name text : String}
    (content : dir.content? (pathOf name) = some (Text.utf8 text)) :
    dir.readText name = .ok text := by
  simp [readText, read, content, Text.ofUtf8?_utf8]

theorem append_of_content {dir : Directory} {name : String} {old : Bytes}
    (content : dir.content? (pathOf name) = some old) (more : Bytes) :
    dir.append name more = .ok (dir.put (pathOf name) (old ++ more)) := by
  simp [append, content]

theorem append_of_missing {dir : Directory} {name : String}
    (missing : dir.read name = .error .notFound) (content : Bytes) :
    dir.append name content =
      if dir.isDirectory (pathOf name).dropLast then .ok (dir.put (pathOf name) content)
      else .error .notFound := by
  obtain ⟨none, plain⟩ := content?_of_missing missing
  simp [append, none, plain]

end Directory

/-! ## Records as lines -/

namespace AuditRecord

theorem isExact_toJson (record : AuditRecord) : isExact record.toJson = true := by
  have option (text : Option String) : isExact (ofOption .str text) = true := by
    cases text <;> rfl
  simp [toJson, isExact, haveExact, option, time]

def line (record : AuditRecord) : List Char :=
  renderChars record.toJson

theorem newline_not_mem_line (record : AuditRecord) : '\n' ∉ record.line := by
  intro inside
  have visible := isLine_renderChars record.toJson record.isExact_toJson '\n' inside
  revert visible
  decide

theorem line_visible (record : AuditRecord) : record.line.all Text.isBlank = false := by
  show (renderChars record.toJson).all Text.isBlank = false
  rfl

theorem readLine_line {record : AuditRecord} (supported : record.createdAt.inRange = true) :
    AuditSink.readLine record.line = .ok record.shown := by
  have read : readText? ofRaw? (String.ofList record.line) = some record.shown :=
    (readText?_render ofRaw? record.isExact_toJson).trans (reads supported)
  rw [AuditSink.readLine, read]

theorem mapM_readLine {records : List AuditRecord}
    (supported : ∀ record ∈ records, record.createdAt.inRange = true) :
    (records.map line).mapM AuditSink.readLine = .ok (records.map shown) := by
  induction records with
  | nil => rfl
  | cons record rest ih =>
      have first := readLine_line (supported record (List.mem_cons_self ..))
      have tail := ih fun other inside => supported other (List.mem_cons_of_mem _ inside)
      rw [List.map_cons, List.mapM_cons, first, tail]
      rfl

theorem map_shown_eq_self_iff (records : List AuditRecord) :
    records.map shown = records ↔ ∀ record ∈ records, record.createdAt.onClock = true := by
  induction records with
  | nil => simp
  | cons record rest ih => simp [shown_eq_self_iff, ih]

end AuditRecord

/-- The text of a file of records. -/
def fileText (records : List AuditRecord) : String :=
  String.ofList ((records.map AuditRecord.line).flatMap fun line => line ++ ['\n'])

theorem fileText_concat (records : List AuditRecord) (record : AuditRecord) :
    fileText (records ++ [record]) = fileText records ++ (render record.toJson ++ "\n") := by
  have newline : "\n" = String.ofList ['\n'] := rfl
  rw [newline, render, ← String.ofList_append, fileText, fileText, ← String.ofList_append,
    List.map_append, List.flatMap_append, List.map_singleton, List.flatMap_singleton]
  rfl

theorem splitOn_fileText (records : List AuditRecord) :
    Text.splitOn '\n' (fileText records).toList = records.map AuditRecord.line ++ [[]] := by
  rw [fileText, String.toList_ofList]
  apply Text.splitOn_lines
  intro line member
  obtain ⟨record, _, rfl⟩ := List.mem_map.mp member
  exact record.newline_not_mem_line

/-- The last lines of such a text are the last records, the last one first. -/
theorem readLast_fileText {records : List AuditRecord}
    (supported : ∀ record ∈ records, record.createdAt.inRange = true) (limit : Nat) :
    AuditSink.readLast (fileText records) limit =
      .ok ((records.map AuditRecord.shown).reverse.take limit) := by
  have kept : (Text.splitOn '\n' (fileText records).toList).reverse.filter
      (fun line => !line.all Text.isBlank) = records.reverse.map AuditRecord.line := by
    rw [splitOn_fileText, List.reverse_append, List.reverse_singleton, List.singleton_append,
      List.filter_cons_of_neg (by decide), ← List.map_reverse, List.filter_eq_self]
    intro line member
    obtain ⟨record, _, rfl⟩ := List.mem_map.mp member
    rw [record.line_visible, Bool.not_false]
  rw [AuditSink.readLast, kept, ← List.map_take, ← List.map_reverse, ← List.map_take]
  apply AuditRecord.mapM_readLine
  intro record member
  exact supported record (List.mem_reverse.mp (List.mem_of_mem_take member))

/-! ## Appending -/

namespace AuditSink

/-- The results of sending records to a sink one after the other, and the sink and the files
after them. -/
def createAll (sink : AuditSink) (files : Directory) :
    List AuditRecord → List (Except AuditError Unit) × AuditSink × Directory
  | [] => ([], sink, files)
  | record :: rest =>
      let (result, sink, files) := sink.create files record
      let (results, sink, files) := createAll sink files rest
      (result :: results, sink, files)

theorem createAll_memory (kept : List AuditRecord) (files : Directory)
    (records : List AuditRecord) :
    createAll (.memory { records := kept }) files records =
      (records.map fun _ => .ok (), .memory { records := kept ++ records }, files) := by
  induction records generalizing kept with
  | nil => simp [createAll]
  | cons record rest ih =>
      have step : create (.memory { records := kept }) files record =
          (.ok (), .memory { records := kept ++ [record] }, files) := rfl
      rw [createAll, step]
      simp only [ih, List.append_assoc, List.singleton_append, List.map_cons]

/-- A file that holds some records goes on to hold the next ones. -/
theorem createAll_file {name : String} {kept : List AuditRecord} {files : Directory}
    (content : files.content? (Directory.pathOf name) = some (Text.utf8 (fileText kept)))
    (records : List AuditRecord) :
    (createAll (.file name) files records).1 = (records.map fun _ => .ok ()) ∧
    (createAll (.file name) files records).2.1 = .file name ∧
    (createAll (.file name) files records).2.2.content? (Directory.pathOf name) =
      some (Text.utf8 (fileText (kept ++ records))) := by
  induction records generalizing kept files with
  | nil => simpa [createAll] using content
  | cons record rest ih =>
      have step : create (.file name) files record =
          (.ok (), .file name,
            files.put (Directory.pathOf name) (Text.utf8 (fileText (kept ++ [record])))) := by
        rw [fileText_concat, Text.utf8_append]
        simp only [create, Directory.append_of_content content]
      have later := ih (Directory.content?_put files (Directory.pathOf name)
        (Text.utf8 (fileText (kept ++ [record]))))
      rw [List.append_assoc, List.singleton_append] at later
      rw [createAll, step]
      exact ⟨congrArg (Except.ok () :: ·) later.1, later.2⟩

theorem createAll_missing {name : String} {files : Directory}
    (absent : files.read name = .error .notFound)
    (homeless : files.isDirectory (Directory.pathOf name).dropLast = false)
    (records : List AuditRecord) :
    createAll (.file name) files records =
      (records.map fun _ => .error (.io .notFound), .file name, files) := by
  induction records with
  | nil => rfl
  | cons record rest ih =>
      have step : create (.file name) files record =
          (.error (.io .notFound), .file name, files) := by
        simp [create, Directory.append_of_missing absent, homeless]
      rw [createAll, step]
      simp only [ih, List.map_cons]

theorem list_of_missing {name : String} {files : Directory}
    (absent : files.read name = .error .notFound) (limit : Nat) :
    list (.file name) files limit = .ok [] := by
  simp [list, Directory.readText, absent]

/-- What a sink lists after it has been sent some records. -/
def listAfter (sink : AuditSink) (files : Directory) (records : List AuditRecord)
    (limit : Nat) : Except AuditError (List AuditRecord) :=
  let (_, sink, files) := sink.createAll files records
  sink.list files limit

theorem listAfter_memory (files : Directory) (records : List AuditRecord) (limit : Nat) :
    listAfter (.memory {}) files records limit = .ok (records.reverse.take limit) := by
  have kept := createAll_memory [] files records
  rw [List.nil_append] at kept
  rw [listAfter, kept]
  rfl

theorem listAfter_file {files : Directory} {name : String}
    (absent : files.read name = .error .notFound)
    (home : files.isDirectory (Directory.pathOf name).dropLast = true)
    {records : List AuditRecord}
    (supported : ∀ record ∈ records, record.createdAt.inRange = true) (limit : Nat) :
    (createAll (.file name) files records).1 = (records.map fun _ => .ok ()) ∧
    listAfter (.file name) files records limit =
      .ok ((records.map AuditRecord.shown).reverse.take limit) := by
  cases records with
  | nil =>
      have nothing : ([].map AuditRecord.shown).reverse.take limit = [] := List.take_nil
      rw [nothing]
      exact ⟨rfl, list_of_missing absent limit⟩
  | cons record rest =>
      -- the first record makes the file, the others are appended to it
      have step : create (.file name) files record =
          (.ok (), .file name,
            files.put (Directory.pathOf name) (Text.utf8 (fileText [record]))) := by
        have first : fileText [record] = render record.toJson ++ "\n" :=
          (fileText_concat [] record).trans (String.empty_append ..)
        simp [create, Directory.append_of_missing absent, home, first]
      have later := createAll_file (Directory.content?_put files (Directory.pathOf name)
        (Text.utf8 (fileText [record]))) rest
      rw [List.singleton_append] at later
      obtain ⟨results, sink, content⟩ := later
      have readable := Directory.readText_of_content content
      rw [listAfter, createAll, step]
      refine ⟨congrArg (Except.ok () :: ·) results, ?_⟩
      simp only [sink, list, readable]
      exact readLast_fileText supported limit

namespace Sample

def oldRecord : AuditRecord :=
  { AuditRecord.create "1" .earliest "a\r\nb" "" with eventId := some "\u2028\n" }

def newRecord : AuditRecord :=
  AuditRecord.create "2" .latest "" "c"

def logs : Directory := { files := [(["logs", "other"], [])] }

/-- The text of such a record shows a second later, with no fraction. -/
def strayRecord : AuditRecord :=
  AuditRecord.create "1" ⟨0, 1000000000⟩ "a" ""

end Sample

end AuditSink

end WebhookRelay
