import WebhookRelay.Json.Text
import WebhookRelay.Text.LowerCase
import WebhookRelay.Text.Split

/-!
# Environment overlay

A variable whose name starts with the mark and two underscores sets a value in the
configuration tree. The rest of the name, cut at double underscores and lower-cased,
is the path; a value that is a JSON scalar keeps its type and any other is a text.
Overrides apply in the order of their paths, so that a path comes before the paths
below it.
-/

set_option autoImplicit false

namespace WebhookRelay.Overlay

def defaultMark : String := "ORDERHOOK"

structure Override where
  path : List String
  value : Json

/-- The parts of a text between double underscores. -/
def splitSegments : List Char → List (List Char)
  | [] => [[]]
  | '_' :: '_' :: rest => [] :: splitSegments rest
  | c :: rest =>
      match splitSegments rest with
      | [] => [[c]]
      | part :: parts => (c :: part) :: parts

def after? (head text : List Char) : Option (List Char) :=
  if text.take head.length = head then some (text.drop head.length) else none

/-- The path that a variable name gives; none for a name without a segment. -/
def path? (mark name : String) : Option (List String) :=
  match after? (mark.toList ++ ['_', '_']) name.toList with
  | none => none
  | some rest =>
      match (splitSegments rest).filter fun segment => !segment.isEmpty with
      | [] => none
      | segments => some (segments.map fun segment => Text.lowerCase (String.ofList segment))

/-- A JSON scalar that is no text, or the text itself. -/
def scalar (text : String) : Json :=
  match Json.parse? text with
  | some (.bool b) => .bool b
  | some (.int n) => .int n
  | some (.float x) => .float x
  | some .null => .null
  | _ => .str text

def override? (mark : String) (variable_ : String × String) : Option Override :=
  (path? mark variable_.1).map fun path => ⟨path, scalar variable_.2⟩

def pathAtMost : List String → List String → Bool
  | [], _ => true
  | _ :: _, [] => false
  | a :: as, b :: bs => a < b || (a = b && pathAtMost as bs)

/-- The overrides of a list of variables, in the order of their paths; equal paths
keep the order of the variables. -/
def overrides (mark : String) (env : List (String × String)) : List Override :=
  (env.filterMap (override? mark)).mergeSort fun a b => pathAtMost a.path b.path

def membersOf : Json → List (String × Json)
  | .obj members => members
  | _ => []

/-- Sets the value at a path; what is no object on the way becomes one. -/
def setPath (value : Json) : List String → Json → Json
  | [], tree => tree
  | [name], tree => .obj (Json.insertMember name value (membersOf tree))
  | name :: rest, tree =>
      let members := membersOf tree
      let child := (Json.lookup? name members).getD (.obj [])
      .obj (Json.insertMember name (setPath value rest child) members)

def apply (tree : Json) (changes : List Override) : Json :=
  changes.foldl (fun tree change => setPath change.value change.path tree) tree

end WebhookRelay.Overlay
