import WebhookRelay.Toml.Quoted
import WebhookRelay.Toml.Scalar
import WebhookRelay.Toml.Tree

/-!
# Statements of a TOML document

A document is read as a list of statements: headers of tables, headers of arrays of
tables, and keys with their values. Arrays and inline tables may extend over several
lines with comments and nest up to a limit.
-/

set_option autoImplicit false

namespace WebhookRelay.Toml

inductive Statement where
  | table (path : List String)
  | addTable (path : List String)
  | assign (key : List String) (value : Json)

def skipSpace (chars : List Char) : List Char :=
  chars.dropWhile isSpace

/-- What stands behind the end of a line; the end of the document is one as well. -/
def lineEnd? : List Char → Option (List Char)
  | [] => some []
  | '\n' :: rest => some rest
  | '\r' :: '\n' :: rest => some rest
  | _ => none

def skipComment (chars : List Char) : List Char :=
  match skipSpace chars with
  | '#' :: rest => rest.dropWhile isPlain
  | rest => rest

def endLine? (chars : List Char) : Option (List Char) :=
  lineEnd? (skipComment chars)

def skipLines? : (fuel : Nat) → List Char → Option (List Char)
  | 0, _ => none
  | fuel + 1, chars =>
      match skipComment chars with
      | [] => some []
      | '\n' :: rest => skipLines? fuel rest
      | '\r' :: '\n' :: rest => skipLines? fuel rest
      | c :: rest =>
          if (skipSpace chars).head? = some '#' then none else some (c :: rest)

def skipLayout? (chars : List Char) : Option (List Char) :=
  skipLines? (chars.length + 1) chars

/-! ## Keys -/

def isBareChar (c : Char) : Bool :=
  Decimal.isDigit c || ('a' ≤ c && c ≤ 'z') || ('A' ≤ c && c ≤ 'Z') || c = '-' || c = '_'

/-- One part of a key: quoted, or bare letters, digits, dashes and underscores. -/
def keyPart? (chars : List Char) : Option (String × List Char) :=
  match quotedLine? chars with
  | some part => some part
  | none =>
      let bare := chars.takeWhile isBareChar
      if bare.isEmpty then none else some (String.ofList bare, chars.dropWhile isBareChar)

def keyParts? : (fuel : Nat) → List Char → Option (List String × List Char)
  | 0, _ => none
  | fuel + 1, chars => do
      let (part, rest) ← keyPart? (skipSpace chars)
      match skipSpace rest with
      | '.' :: rest =>
          let (parts, rest) ← keyParts? fuel rest
          return (part :: parts, rest)
      | rest => return ([part], rest)

def key? (chars : List Char) : Option (List String × List Char) :=
  keyParts? (chars.length + 1) chars

/-! ## Values -/

def maxNesting : Nat := 80

def isScalarChar (c : Char) : Bool :=
  isBareChar c || c = '.' || c = '+' || c = ':'

/-- A scalar without quotes; one blank may part a date from a time. -/
def bareValue? (chars : List Char) : Option (Json × List Char) := do
  let word := chars.takeWhile isScalarChar
  let rest := chars.dropWhile isScalarChar
  match DateTime.date? word, rest with
  | some (_, []), ' ' :: c :: more =>
      if Decimal.isDigit c then
        let time := (c :: more).takeWhile isScalarChar
        let value ← scalar? (word ++ ' ' :: time)
        return (value, (c :: more).dropWhile isScalarChar)
      else
        let value ← scalar? word
        return (value, rest)
  | _, _ =>
      let value ← scalar? word
      return (value, rest)

mutual

def value? : (fuel nesting : Nat) → List Char → Option (Json × List Char)
  | 0, _, _ => none
  | fuel + 1, nesting, chars =>
      match chars with
      | '[' :: rest =>
          if nesting = 0 then none
          else do
            let (items, rest) ← items? fuel (nesting - 1) rest
            return (.arr items, rest)
      | '\x7b' :: rest =>
          if nesting = 0 then none
          else do
            let (entries, rest) ← entries? fuel (nesting - 1) rest
            let table ← inlineTable? entries
            return (table, rest)
      | '"' :: _ => (quoted? chars).map fun (text, rest) => (.str text, rest)
      | '\'' :: _ => (quoted? chars).map fun (text, rest) => (.str text, rest)
      | _ => bareValue? chars

/-- Items up to the closing bracket, with commas between them and maybe one behind. -/
def items? : (fuel nesting : Nat) → List Char → Option (List Json × List Char)
  | 0, _, _ => none
  | fuel + 1, nesting, chars => do
      match ← skipLayout? chars with
      | ']' :: rest => return ([], rest)
      | rest =>
          let (item, rest) ← value? fuel nesting rest
          match ← skipLayout? rest with
          | ']' :: rest => return ([item], rest)
          | ',' :: rest =>
              let (items, rest) ← items? fuel nesting rest
              return (item :: items, rest)
          | _ => none

def entries? : (fuel nesting : Nat) → List Char →
    Option (List (List String × Json) × List Char)
  | 0, _, _ => none
  | fuel + 1, nesting, chars => do
      match ← skipLayout? chars with
      | '\x7d' :: rest => return ([], rest)
      | rest =>
          let (key, rest) ← key? rest
          let rest ← Text.behind? '=' rest
          let (value, rest) ← value? fuel nesting (skipSpace rest)
          match ← skipLayout? rest with
          | '\x7d' :: rest => return ([(key, value)], rest)
          | ',' :: rest =>
              let (entries, rest) ← entries? fuel nesting rest
              return ((key, value) :: entries, rest)
          | _ => none

end

/-! ## Lines -/

def header? (chars : List Char) : Option (Statement × List Char) :=
  match chars with
  | '[' :: rest => do
      let (path, rest) ← key? rest
      match rest with
      | ']' :: ']' :: rest => return (.addTable path, rest)
      | _ => none
  | rest => do
      let (path, rest) ← key? rest
      let rest ← Text.behind? ']' rest
      return (.table path, rest)

def statement? (chars : List Char) : Option (Statement × List Char) :=
  match chars with
  | '[' :: rest => header? rest
  | rest => do
      let (key, rest) ← key? rest
      let rest ← Text.behind? '=' rest
      let (value, rest) ← value? (rest.length + 1) maxNesting (skipSpace rest)
      return (.assign key value, rest)

def statementsWithin? : (fuel : Nat) → List Char → Option (List Statement)
  | 0, _ => none
  | fuel + 1, chars => do
      match ← skipLayout? chars with
      | [] => return []
      | rest =>
          let (statement, rest) ← statement? rest
          let rest ← endLine? rest
          let statements ← statementsWithin? fuel rest
          return statement :: statements

def statements? (chars : List Char) : Option (List Statement) :=
  statementsWithin? (chars.length + 1) chars

end WebhookRelay.Toml
