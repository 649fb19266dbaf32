import WebhookRelay.Json.Text

/-!
# Records in JSON

A record is read from an object, whose unknown members are skipped and whose known
ones come once each, or from an array of its fields in order. Every reader works on
shapes, so that one definition serves texts and values.
-/

set_option autoImplicit false

namespace WebhookRelay.Json

abbrev Decoder (α : Type) := Raw → Option α

abbrev Fields := List (String × Raw)

def Fields.find? (fields : Fields) (name : String) : Option Raw :=
  (List.find? (fun field => field.1 = name) fields).map Prod.snd

/-- The known members of an object; none when one comes twice, or when a name is no
text. -/
def knownMembers? (names : List String) :
    List (Option String × Raw) → Option Fields
  | [] => some []
  | (name, raw) :: rest => do
      let name ← name
      let fields ← knownMembers? names rest
      if names.contains name then
        if (fields.find? name).isSome then none else some ((name, raw) :: fields)
      else some fields

/-- The fields of a record of which the last `optional` ones may be left out of an
array. -/
def recordWith? (optional : Nat) (names : List String) : Raw → Option Fields
  | .object members => knownMembers? names members
  | .array items =>
      if items.length ≤ names.length ∧ names.length ≤ items.length + optional then
        some (names.zip items)
      else none
  | _ => none

def record? (names : List String) : Raw → Option Fields :=
  recordWith? 0 names

namespace Fields

def required {α : Type} (fields : Fields) (name : String) (read : Decoder α) : Option α :=
  (fields.find? name).bind read

def defaulted {α : Type} (fields : Fields) (name : String) (read : Decoder α)
    (default : α) : Option α :=
  match fields.find? name with
  | none => some default
  | some raw => read raw

end Fields

def nullable {α : Type} (read : Decoder α) : Decoder (Option α)
  | .null => some none
  | raw => (read raw).map some

def Fields.optional {α : Type} (fields : Fields) (name : String) (read : Decoder α) :
    Option (Option α) :=
  fields.defaulted name (nullable read) none

def asText : Decoder String
  | .string text => text
  | _ => none

def asBool : Decoder Bool
  | .bool b => some b
  | _ => none

def asNat (bound : Nat) : Decoder Nat
  | .number (some (.int (.ofNat n))) => if n ≤ bound then some n else none
  | _ => none

def asUInt16 : Decoder UInt16 := fun raw => (asNat Decimal.uint16Max raw).map UInt16.ofNat

def asUInt32 : Decoder UInt32 := fun raw => (asNat Decimal.uint32Max raw).map UInt32.ofNat

def asUInt64 : Decoder UInt64 := fun raw => (asNat Decimal.uint64Max raw).map UInt64.ofNat

def asList {α : Type} (read : Decoder α) : Decoder (List α)
  | .array items => items.mapM read
  | _ => none

/-- A name out of a closed list, alone or as the only member of an object with a null
value. -/
def asName {α : Type} (names : List (String × α)) (raw : Raw) : Option α :=
  let named (name : Option String) : Option α := do
    let name ← name
    (names.find? fun entry => entry.1 = name).map Prod.snd
  match raw with
  | .string name => named name
  | .object [(name, .null)] => named name
  | _ => none

def readText? {α : Type} (read : Decoder α) (text : String) : Option α :=
  (Raw.ofChars? text.toList).bind read

/-- Reads bytes as one type. The strings that it skips need not be text. -/
def readBytes? {α : Type} (read : Decoder α) (bytes : Bytes) : Option α :=
  (Raw.ofBytes? bytes).bind read

def read? {α : Type} (read : Decoder α) (value : Json) : Option α :=
  read (Raw.ofValue value)

def objOfPresent (members : List (String × Option Json)) : Json :=
  .obj (members.filterMap fun (name, value) => value.map fun value => (name, value))

end WebhookRelay.Json
