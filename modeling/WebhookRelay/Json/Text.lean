import WebhookRelay.Json.Number
import WebhookRelay.Text.Hex
import WebhookRelay.Text.Bytes

/-!
# JSON text

Reading happens in two steps. The first one gives the shape of a text: it keeps
members in order with their duplicates, and it accepts strings whose escapes name no
text and numbers beyond the range, because a reader that skips a member never looks
at them. The second one, `Raw.value?`, gives the value and refuses these, as well as
nesting deeper than `maxDepth`.
-/

set_option autoImplicit false

namespace WebhookRelay.Json

/-- The shape of a JSON text. A string or number without a value is `none`. -/
inductive Raw where
  | null
  | bool (value : Bool)
  | number (value : Option Json)
  | string (value : Option String)
  | array (items : List Raw)
  | object (members : List (Option String × Raw))
  deriving Inhabited

/-- A piece of a string: a character, or a code unit written as an escape. -/
inductive Piece where
  | char (c : Char)
  | unit (n : Nat)

def isLayout (c : Char) : Bool :=
  c = ' ' || c = '\t' || c = '\n' || c = '\r'

def skipLayout (chars : List Char) : List Char :=
  chars.dropWhile isLayout

def simpleEscape? : Char → Option Char
  | '"' => some '"'
  | '\\' => some '\\'
  | '/' => some '/'
  | 'b' => some '\x08'
  | 'f' => some '\x0c'
  | 'n' => some '\n'
  | 'r' => some '\r'
  | 't' => some '\t'
  | _ => none

def pieces? : List Char → Option (List Piece × List Char)
  | [] => none
  | '"' :: rest => some ([], rest)
  | '\\' :: 'u' :: a :: b :: c :: d :: rest => do
      let unit ← Hex.number? [a, b, c, d]
      let (tail, rest) ← pieces? rest
      return (.unit unit :: tail, rest)
  | '\\' :: c :: rest => do
      let plain ← simpleEscape? c
      let (tail, rest) ← pieces? rest
      return (.char plain :: tail, rest)
  | c :: rest =>
      if c.toNat < 0x20 ∨ c = '\\' then none
      else do
        let (tail, rest) ← pieces? rest
        return (.char c :: tail, rest)

def isHighSurrogate (n : Nat) : Bool :=
  0xD800 ≤ n && n ≤ 0xDBFF

def isLowSurrogate (n : Nat) : Bool :=
  0xDC00 ≤ n && n ≤ 0xDFFF

/-- The characters of a string, unless a surrogate stands alone. -/
def joinPieces? : List Piece → Option (List Char)
  | [] => some []
  | .char c :: rest => (joinPieces? rest).map (c :: ·)
  | .unit high :: .unit low :: rest =>
      if isHighSurrogate high then
        if isLowSurrogate low then
          (joinPieces? rest).map
            (Char.ofNat (0x10000 + (high - 0xD800) * 0x400 + (low - 0xDC00)) :: ·)
        else none
      else if isLowSurrogate high then none
      else (joinPieces? (.unit low :: rest)).map (Char.ofNat high :: ·)
  | .unit n :: rest =>
      if isHighSurrogate n || isLowSurrogate n then none
      else (joinPieces? rest).map (Char.ofNat n :: ·)

def string? (chars : List Char) : Option (Option String × List Char) := do
  let (pieces, rest) ← pieces? chars
  return ((joinPieces? pieces).map String.ofList, rest)

mutual

def value? : (fuel : Nat) → List Char → Option (Raw × List Char)
  | 0, _ => none
  | fuel + 1, chars =>
      match skipLayout chars with
      | 'n' :: 'u' :: 'l' :: 'l' :: rest => some (.null, rest)
      | 't' :: 'r' :: 'u' :: 'e' :: rest => some (.bool true, rest)
      | 'f' :: 'a' :: 'l' :: 's' :: 'e' :: rest => some (.bool false, rest)
      | '"' :: rest => (string? rest).map fun (text, rest) => (.string text, rest)
      | '[' :: rest =>
          match skipLayout rest with
          | ']' :: rest => some (.array [], rest)
          | rest => (items? fuel rest).map fun (items, rest) => (.array items, rest)
      | '\x7b' :: rest =>
          match skipLayout rest with
          | '\x7d' :: rest => some (.object [], rest)
          | rest => (members? fuel rest).map fun (members, rest) => (.object members, rest)
      | rest => (numberLiteral? rest).map fun (literal, rest) => (.number literal.value?, rest)

def items? : (fuel : Nat) → List Char → Option (List Raw × List Char)
  | 0, _ => none
  | fuel + 1, chars => do
      let (item, rest) ← value? fuel chars
      match skipLayout rest with
      | ',' :: rest =>
          let (items, rest) ← items? fuel rest
          return (item :: items, rest)
      | ']' :: rest => return ([item], rest)
      | _ => none

def members? : (fuel : Nat) → List Char → Option (List (Option String × Raw) × List Char)
  | 0, _ => none
  | fuel + 1, chars =>
      match skipLayout chars with
      | '"' :: rest => do
          let (name, rest) ← string? rest
          match skipLayout rest with
          | ':' :: rest =>
              let (value, rest) ← value? fuel rest
              match skipLayout rest with
              | ',' :: rest =>
                  let (members, rest) ← members? fuel rest
                  return ((name, value) :: members, rest)
              | '\x7d' :: rest => return ([(name, value)], rest)
              | _ => none
          | _ => none
      | _ => none

end

def Raw.ofChars? (chars : List Char) : Option Raw := do
  let (raw, rest) ← Json.value? (2 * chars.length + 2) chars
  if (skipLayout rest).isEmpty then some raw else none

/-- Two escapes that no escape around them makes a character of. -/
def noCharacter : List Char :=
  ['\\', 'u', 'd', '8', '0', '0', '\\', 'u', 'd', '8', '0', '0']

/-- How a reader of shapes sees bytes.  A byte of no character spoils the text of the string that
it stands in, and nothing else of the string.  Behind a backslash, and anywhere outside a
string, it is an error. -/
def shapeChars : (escaped : Bool) → List (Option Char) → List Char
  | _, [] => []
  | escaped, some c :: rest => c :: shapeChars (!escaped && c = '\\') rest
  | escaped, none :: rest =>
      (if escaped then ['\x00'] else noCharacter) ++ shapeChars false rest

theorem shapeChars_map_some (escaped : Bool) (chars : List Char) :
    shapeChars escaped (chars.map some) = chars := by
  induction chars generalizing escaped with
  | nil => rfl
  | cons c rest ih => rw [List.map_cons, shapeChars, ih]

def Raw.ofBytes? (bytes : Bytes) : Option Raw :=
  Raw.ofChars? (shapeChars false (Text.spelled bytes))

def maxDepth : Nat := 127

mutual

/-- The value of a shape in which at most `depth` arrays and objects are nested. -/
def Raw.valueWithin? : (depth : Nat) → Raw → Option Json
  | _, .null => some .null
  | _, .bool b => some (.bool b)
  | _, .number n => n
  | _, .string s => s.map .str
  | 0, .array _ => none
  | depth + 1, .array items => (Raw.itemsWithin? depth items).map .arr
  | 0, .object _ => none
  | depth + 1, .object members => (Raw.membersWithin? depth [] members).map .obj

def Raw.itemsWithin? : (depth : Nat) → List Raw → Option (List Json)
  | _, [] => some []
  | depth, item :: rest => do
      let value ← Raw.valueWithin? depth item
      let values ← Raw.itemsWithin? depth rest
      return value :: values

/-- The members collected so far, with the last one of each name. -/
def Raw.membersWithin? : (depth : Nat) → List (String × Json) →
    List (Option String × Raw) → Option (List (String × Json))
  | _, done, [] => some done
  | depth, done, (name, raw) :: rest => do
      let name ← name
      let value ← Raw.valueWithin? depth raw
      Raw.membersWithin? depth (insertMember name value done) rest

end

def Raw.value? (raw : Raw) : Option Json :=
  raw.valueWithin? maxDepth

mutual

def Raw.ofValue : Json → Raw
  | .null => .null
  | .bool b => .bool b
  | .int n => .number (some (.int n))
  | .float x => .number (some (.float x))
  | .str s => .string (some s)
  | .arr items => .array (Raw.ofItems items)
  | .obj members => .object (Raw.ofMembers members)

def Raw.ofItems : List Json → List Raw
  | [] => []
  | item :: rest => Raw.ofValue item :: Raw.ofItems rest

def Raw.ofMembers : List (String × Json) → List (Option String × Raw)
  | [] => []
  | (name, value) :: rest => (some name, Raw.ofValue value) :: Raw.ofMembers rest

end

def parse? (text : String) : Option Json :=
  (Raw.ofChars? text.toList).bind Raw.value?

def parseBytes? (bytes : Bytes) : Option Json :=
  (Text.ofUtf8? bytes).bind parse?

end WebhookRelay.Json
