import WebhookRelay.Text.Bytes
import WebhookRelay.Text.Split

/-!
# Directories

The files below one directory, by their relative paths. A directory exists if a file
lies in it; a file can only be made in a directory that exists.
-/

set_option autoImplicit false

namespace WebhookRelay

inductive FileError where
  | notFound
  | isDirectory
  | notText
  | other (reason : String)
  deriving DecidableEq, Repr

def FileError.message : FileError → String
  | .notFound => "No such file or directory (os error 2)"
  | .isDirectory => "Is a directory (os error 21)"
  | .notText => "stream did not contain valid UTF-8"
  | .other reason => reason

structure Directory where
  files : List (List String × Bytes) := []
  deriving Repr

namespace Directory

instance : Inhabited Directory := ⟨{}⟩

/-- The names on a path, without empty ones and points. -/
def pathOf (name : String) : List String :=
  let parts := (Text.splitOn '/' name.toList).filter fun part => !(part.isEmpty || part = ['.'])
  parts.map String.ofList

def content? (dir : Directory) (path : List String) : Option Bytes :=
  (dir.files.find? fun file => file.1 = path).map Prod.snd

/-- The directory itself, or one with a file in it. -/
def isDirectory (dir : Directory) (path : List String) : Bool :=
  path.isEmpty || dir.files.any fun file => path.length < file.1.length && path.isPrefixOf file.1

def read (dir : Directory) (name : String) : Except FileError Bytes :=
  let path := pathOf name
  match dir.content? path with
  | some content => .ok content
  | none => if dir.isDirectory path then .error .isDirectory else .error .notFound

def readText (dir : Directory) (name : String) : Except FileError String :=
  match dir.read name with
  | .error e => .error e
  | .ok content =>
      match Text.ofUtf8? content with
      | some text => .ok text
      | none => .error .notText

def put (dir : Directory) (path : List String) (content : Bytes) : Directory :=
  ⟨(path, content) :: dir.files.filter fun file => file.1 ≠ path⟩

def write (dir : Directory) (name : String) (content : Bytes) : Directory :=
  dir.put (pathOf name) content

/-- Appends to a file, which is made if its directory exists. -/
def append (dir : Directory) (name : String) (content : Bytes) : Except FileError Directory :=
  let path := pathOf name
  match dir.content? path with
  | some old => .ok (dir.put path (old ++ content))
  | none =>
      if dir.isDirectory path then .error .isDirectory
      else if dir.isDirectory path.dropLast then .ok (dir.put path content)
      else .error .notFound

end Directory

end WebhookRelay
