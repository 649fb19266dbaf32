import WebhookRelay.Json.Value

/-!
# The tree of a TOML document

Statements fill a tree. A table may be implied by the header of a table below it,
opened by dotted keys or by its own header; what has a value, a header or dotted keys
cannot be opened by a header again, and dotted keys cannot add to what others opened.
-/

set_option autoImplicit false

namespace WebhookRelay.Toml

inductive Opening where
  | implied
  | header
  | dotted
  deriving DecidableEq, Repr

/-- A place in the tree. An array of tables has a last one, to which headers add. -/
inductive Node where
  | value (json : Json)
  | table (opening : Opening) (members : List (String × Node))
  | tables (older : List (List (String × Node))) (last : List (String × Node))

abbrev Members := List (String × Node)

namespace Members

def find? (name : String) : Members → Option Node
  | [] => none
  | (other, node) :: rest => if other = name then some node else find? name rest

def put (name : String) (node : Node) : Members → Members
  | [] => [(name, node)]
  | (other, old) :: rest =>
      if other = name then (name, node) :: rest else (other, old) :: put name node rest

def changeAt? (change : Members → Option Members) : List String → Members → Option Members
  | [], members => change members
  | name :: path, members =>
      match members.find? name with
      | none => do
          let inner ← changeAt? change path []
          return members.put name (.table .implied inner)
      | some (.table opening inner) => do
          let inner ← changeAt? change path inner
          return members.put name (.table opening inner)
      | some (.tables older last) => do
          let last ← changeAt? change path last
          return members.put name (.tables older last)
      | some (.value _) => none

/-- Opens a table by its own header: one that is new or only implied. -/
def openTable? (name : String) (members : Members) : Option Members :=
  match members.find? name with
  | none => some (members.put name (.table .header []))
  | some (.table .implied inner) => some (members.put name (.table .header inner))
  | _ => none

def addTable? (name : String) (members : Members) : Option Members :=
  match members.find? name with
  | none => some (members.put name (.tables [] []))
  | some (.tables older last) => some (members.put name (.tables (older ++ [last]) []))
  | _ => none

def setNew? (name : String) (value : Json) (members : Members) : Option Members :=
  match members.find? name with
  | none => some (members.put name (.value value))
  | some _ => none

/-- Sets a member in the table to which the parts of a dotted key lead. The table itself
must have been opened by dotted keys, or be opened by this one. -/
def assignAt? (last : String) (value : Json) : List String → Members → Option Members
  | [], members => members.setNew? last value
  | name :: path, members =>
      match members.find? name with
      | none => do
          let inner ← assignAt? last value path []
          return members.put name (.table .dotted inner)
      | some (.table .dotted inner) => do
          let inner ← assignAt? last value path inner
          return members.put name (.table .dotted inner)
      | some (.table .implied inner) =>
          if path.isEmpty then none
          else do
            let inner ← assignAt? last value path inner
            return members.put name (.table .implied inner)
      | some (.tables older newest) =>
          if path.isEmpty then none
          else do
            let newest ← assignAt? last value path newest
            return members.put name (.tables older newest)
      | _ => none

def assign? (key : List String) (value : Json) (members : Members) : Option Members :=
  match key.getLast? with
  | none => none
  | some last => assignAt? last value key.dropLast members

end Members

mutual

def Node.json : Node → Json
  | .value json => json
  | .table _ members => .obj (jsonOfMembers members)
  | .tables older last => .arr (jsonOfTables older ++ [.obj (jsonOfMembers last)])

def jsonOfMembers : List (String × Node) → List (String × Json)
  | [] => []
  | (name, node) :: rest => (name, node.json) :: jsonOfMembers rest

def jsonOfTables : List (List (String × Node)) → List Json
  | [] => []
  | members :: rest => .obj (jsonOfMembers members) :: jsonOfTables rest

end

def inlineTable? (entries : List (List String × Json)) : Option Json :=
  (entries.foldlM (fun members (key, value) => Members.assign? key value members) []).map
    fun members => .obj (jsonOfMembers members)

end WebhookRelay.Toml
