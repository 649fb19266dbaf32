import WebhookRelay.Number.Binary64

/-!
# JSON values

A value holds at most one member per name, in the order in which the names first
came. Integers of 64 bits, signed or unsigned, are kept exactly; every other number
is a binary floating-point number.
-/

set_option autoImplicit false

namespace WebhookRelay

inductive Json where
  | null
  | bool (value : Bool)
  | int (value : Int)
  | float (value : Binary64)
  | str (value : String)
  | arr (items : List Json)
  | obj (members : List (String × Json))
  deriving Inhabited, Repr

namespace Json

/-- Sets one member: in its old place, or behind the others. -/
def insertMember (name : String) (value : Json) :
    List (String × Json) → List (String × Json)
  | [] => [(name, value)]
  | (other, old) :: rest =>
      if other = name then (name, value) :: rest
      else (other, old) :: insertMember name value rest

def lookup? (name : String) : List (String × Json) → Option Json
  | [] => none
  | (other, value) :: rest => if other = name then some value else lookup? name rest

def member? (name : String) : Json → Option Json
  | .obj members => lookup? name members
  | _ => none

def path? : List String → Json → Option Json
  | [], value => some value
  | name :: rest, value => (value.member? name).bind (path? rest)

def asString? : Json → Option String
  | .str text => some text
  | _ => none

/-- A member that is absent, and one that is null, stand for nothing. -/
def ofOption {α : Type} (encode : α → Json) : Option α → Json
  | none => .null
  | some value => encode value

theorem lookup?_insertMember_self (name : String) (value : Json)
    (members : List (String × Json)) :
    lookup? name (insertMember name value members) = some value := by
  induction members with
  | nil => simp [insertMember, lookup?]
  | cons member rest ih =>
      by_cases same : member.1 = name <;> simp [insertMember, lookup?, same, ih]

theorem lookup?_insertMember_of_ne {name other : String} (value : Json)
    (members : List (String × Json)) (distinct : other ≠ name) :
    lookup? other (insertMember name value members) = lookup? other members := by
  induction members with
  | nil => simp [insertMember, lookup?, distinct.symm]
  | cons member rest ih =>
      by_cases same : member.1 = name
      · simp [insertMember, lookup?, same, distinct.symm]
      · rw [insertMember, if_neg same, lookup?, lookup?, ih]

end Json

end WebhookRelay
