import WebhookRelay.Json.Record
import Mathlib.Data.List.Nodup

/-!
# Members of written records

A record is written as an object with a member for each field.  Read as a record, such an
object has the fields that its members name, so a field is read back whenever its value is,
and a field that is left out is read as nothing.
-/

set_option autoImplicit false

namespace WebhookRelay.Json

/-- What is written of a value is read as a second one. -/
def ReadsAs {α : Type} (read : Decoder α) (encode : α → Json) (value other : α) : Prop :=
  read? read (encode value) = some other

def Recovers {α : Type} (read : Decoder α) (encode : α → Json) (value : α) : Prop :=
  ReadsAs read encode value value

theorem ReadsAs.recovers_iff {α : Type} {read : Decoder α} {encode : α → Json} {value other : α}
    (reads : ReadsAs read encode value other) : Recovers read encode value ↔ other = value := by
  rw [Recovers, ReadsAs, reads, Option.some_inj]

theorem bind_of_eq_some {α β : Type} {first : Option α} {next : α → Option β} {value : α}
    (found : first = some value) : (first >>= next) = next value := by
  rw [found]
  rfl

/-! ## Fields of an object -/

def fieldsOf (members : List (String × Json)) : Fields :=
  members.map fun member => (member.1, Raw.ofValue member.2)

theorem Fields.find?_cons (field : String × Raw) (fields : Fields) (name : String) :
    Fields.find? (field :: fields) name =
      if field.1 = name then some field.2 else fields.find? name := by
  by_cases same : field.1 = name <;> simp [Fields.find?, same]

theorem find?_fieldsOf (name : String) (members : List (String × Json)) :
    (fieldsOf members).find? name = (lookup? name members).map Raw.ofValue := by
  induction members with
  | nil => rfl
  | cons member rest ih =>
      have shape : fieldsOf (member :: rest) =
          (member.1, Raw.ofValue member.2) :: fieldsOf rest := rfl
      rw [shape, Fields.find?_cons, ih, lookup?]
      split <;> rfl

theorem lookup?_eq_none {name : String} {members : List (String × Json)}
    (absent : name ∉ members.map Prod.fst) : lookup? name members = none := by
  induction members with
  | nil => rfl
  | cons member rest ih =>
      rw [List.map_cons, List.mem_cons, not_or] at absent
      rw [lookup?, if_neg (Ne.symm absent.1), ih absent.2]

theorem knownMembers?_ofMembers {names : List String} {members : List (String × Json)}
    (distinct : (members.map Prod.fst).Nodup) (known : ∀ member ∈ members, member.1 ∈ names) :
    knownMembers? names (Raw.ofMembers members) = some (fieldsOf members) := by
  induction members with
  | nil => rfl
  | cons member rest ih =>
      obtain ⟨name, value⟩ := member
      rw [List.map_cons, List.nodup_cons] at distinct
      have tail := ih distinct.2 fun member inside => known member (List.mem_cons_of_mem _ inside)
      have first : (fieldsOf rest).find? name = none := by
        rw [find?_fieldsOf, lookup?_eq_none distinct.1, Option.map_none]
      have listed : names.contains name = true :=
        List.contains_iff_mem.mpr (known (name, value) (List.mem_cons_self ..))
      rw [Raw.ofMembers, knownMembers?, tail]
      simp only [Option.bind_eq_bind, Option.bind_some, listed, first, if_true]
      rfl

theorem recordWith?_obj {optional : Nat} {names : List String} {members : List (String × Json)}
    (distinct : (members.map Prod.fst).Nodup) (known : ∀ member ∈ members, member.1 ∈ names) :
    recordWith? optional names (Raw.ofValue (.obj members)) = some (fieldsOf members) :=
  knownMembers?_ofMembers distinct known

/-! ## Reading field after field

A reader asks for one field after the other.  Each of these steps hands the value of the field
on to the rest of the reader. -/

section Steps

variable {α β : Type} {read : Decoder α} {encode : α → Json} {members : List (String × Json)}
  {name : String}

/-- The start of a reader of a record that writes all its fields in their order. -/
theorem recordWith?_then {optional : Nat} (names : List String) {next : Fields → Option β}
    (distinct : names.Nodup) (written : members.map Prod.fst = names) :
    (recordWith? optional names (Raw.ofValue (.obj members)) >>= next) =
      next (fieldsOf members) := by
  subst written
  exact bind_of_eq_some
    (recordWith?_obj distinct fun member inside => List.mem_map_of_mem inside)

theorem required_then {value other : α} {next : α → Option β}
    (reads : ReadsAs read encode value other)
    (written : lookup? name members = some (encode value)) :
    ((fieldsOf members).required name read >>= next) = next other := by
  apply bind_of_eq_some
  rw [Fields.required, find?_fieldsOf, written]
  exact reads

theorem defaulted_then {value other : α} {next : α → Option β} (default : α)
    (reads : ReadsAs read encode value other)
    (written : lookup? name members = some (encode value)) :
    ((fieldsOf members).defaulted name read default >>= next) = next other := by
  apply bind_of_eq_some
  rw [Fields.defaulted, find?_fieldsOf, written]
  exact reads

/-- Null is written for nothing and read for nothing, as long as no value reads null. -/
theorem nullable_reads {value : Option α} (become : α → α) (strict : read .null = none)
    (reads : ∀ inner ∈ value, ReadsAs read encode inner (become inner)) :
    ReadsAs (nullable read) (ofOption encode) value (value.map become) := by
  cases value with
  | none => rfl
  | some inner =>
      have found : read (Raw.ofValue (encode inner)) = some (become inner) := reads inner rfl
      show nullable read (Raw.ofValue (encode inner)) = some (some (become inner))
      unfold nullable
      split
      · rename_i null
        rw [null, strict] at found
        cases found
      · rw [found, Option.map_some]

theorem optional_then (value : Option α) {next : Option α → Option β}
    (strict : read .null = none) (recovers : ∀ inner ∈ value, Recovers read encode inner)
    (written : lookup? name members = some (ofOption encode value)) :
    ((fieldsOf members).optional name read >>= next) = next value := by
  have reads := nullable_reads id strict recovers
  rw [Option.map_id_apply] at reads
  exact defaulted_then none reads written

theorem present_then (value : Option α) {next : Option α → Option β}
    (strict : read .null = none) (recovers : ∀ inner ∈ value, Recovers read encode inner)
    (written : lookup? name members = value.map encode) :
    ((fieldsOf members).optional name read >>= next) = next value := by
  cases value with
  | none =>
      apply bind_of_eq_some
      rw [Fields.optional, Fields.defaulted, find?_fieldsOf, written]
      rfl
  | some inner => exact optional_then (some inner) strict recovers written

end Steps

/-! ## Members that are left out -/

def presentOf (members : List (String × Option Json)) : List (String × Json) :=
  members.filterMap fun member => member.2.map fun value => (member.1, value)

theorem names_presentOf (members : List (String × Option Json)) :
    ((presentOf members).map Prod.fst).Sublist (members.map Prod.fst) := by
  induction members with
  | nil => exact List.Sublist.refl _
  | cons member rest ih =>
      obtain ⟨name, value⟩ := member
      cases value with
      | none => exact List.Sublist.cons name ih
      | some value => exact List.Sublist.cons_cons name ih

/-- Where names are distinct, a member that holds nothing is not found. -/
theorem lookup?_presentOf {members : List (String × Option Json)}
    (distinct : (members.map Prod.fst).Nodup) {name : String} {value : Option Json}
    (member : (name, value) ∈ members) : lookup? name (presentOf members) = value := by
  induction members with
  | nil => cases member
  | cons first rest ih =>
      obtain ⟨other, held⟩ := first
      rw [List.map_cons, List.nodup_cons] at distinct
      cases member with
      | head =>
          have later : lookup? name (presentOf rest) = none :=
            lookup?_eq_none fun inside => distinct.1 ((names_presentOf rest).subset inside)
          cases value with
          | none => exact later
          | some value => exact if_pos rfl
      | tail _ inside =>
          have different : other ≠ name := by
            rintro rfl
            exact distinct.1 (List.mem_map.mpr ⟨_, inside, rfl⟩)
          have found := ih distinct.2 inside
          cases held with
          | none => exact found
          | some held => exact (if_neg different).trans found

/-! ## Plain values -/

theorem text_recovers (text : String) : Recovers asText .str text := rfl

theorem texts_recover (texts : Option String) : ∀ text ∈ texts, Recovers asText .str text :=
  fun text _ => text_recovers text

theorem bool_recovers (b : Bool) : Recovers asBool .bool b := rfl

theorem asNat_ofNat {bound n : Nat} (bounded : n ≤ bound) :
    asNat bound (Raw.ofValue (.int n)) = some n :=
  if_pos bounded

theorem list_recovers {α : Type} {read : Decoder α} {encode : α → Json} {items : List α}
    (recovers : ∀ item ∈ items, Recovers read encode item) :
    Recovers (asList read) (fun items => .arr (items.map encode)) items := by
  show (Raw.ofItems (items.map encode)).mapM read = some items
  induction items with
  | nil => rfl
  | cons item rest ih =>
      have first : read (Raw.ofValue (encode item)) = some item :=
        recovers item (List.mem_cons_self ..)
      have tail := ih fun item inside => recovers item (List.mem_cons_of_mem _ inside)
      rw [List.map_cons, Raw.ofItems, List.mapM_cons, first, tail]
      rfl

end WebhookRelay.Json
