import WebhookRelay.Text.Blank
import WebhookRelay.Text.Bytes
import WebhookRelay.Text.Split

/-!
# Environment files

A file of assignments, one a line, that adds variables to an environment; a variable
that is set already stays as it is. A value may be quoted, then it may extend over
several lines; a backslash takes a character's meaning away, and a dollar sign puts in
the value of a variable, except in single quotes. Reading stops at the first line that
is no assignment.
-/

set_option autoImplicit false

namespace WebhookRelay.EnvFile

abbrev Variables := List (String × String)

/-- Characters of variable names behind a dollar sign; beyond ASCII all of them count
as letters. -/
def isNameChar (c : Char) : Bool :=
  c.isAlphanum || 128 ≤ c.toNat

/-! ## Lines -/

/-- Where a character stands: outside of quotes, maybe behind a blank, or inside of
quotes; and whether it stands behind a backslash. -/
inductive Place where
  | outside
  | behindBlank
  | doubleQuotes
  | singleQuotes
  | escaped (place : Place)
  deriving DecidableEq, Repr

/-- The place behind a character; none where a comment begins. -/
def Place.after? : Place → Char → Option Place
  | .escaped place, _ => some place
  | .doubleQuotes, c =>
      some (if c = '\\' then .escaped .doubleQuotes else if c = '"' then .outside else .doubleQuotes)
  | .singleQuotes, c =>
      some (if c = '\\' then .escaped .singleQuotes
        else if c = '\'' then .outside else .singleQuotes)
  | place, c =>
      if c = '\\' then some (.escaped .outside)
      else if c = '"' then some .doubleQuotes
      else if c = '\'' then some .singleQuotes
      else if place = .behindBlank then (if c = '#' then none else some .outside)
      else if Text.isBlank c ∧ c ≠ '\n' ∧ c ≠ '\r' then some .behindBlank
      else some .outside

/-- A line without its comment, and the place behind it unless a comment ended it. -/
def scan (place : Place) : List Char → List Char × Option Place
  | [] => ([], some place)
  | c :: rest =>
      match place.after? c with
      | none => ([], none)
      | some place =>
          let (text, final) := scan place rest
          (c :: text, final)

def withoutLineEnd (line : List Char) : List Char :=
  if line.getLast? = some '\n' then
    if line.dropLast.getLast? = some '\r' then line.dropLast.dropLast else line.dropLast
  else line

/-- Lines with their line ends, joined where quotes are open. A last line on which
they stay open is none. -/
def joinLines (started : List Char) (place : Place) : List (List Char) → List (List Char)
  | [] => []
  | line :: rest =>
      if (Text.trimStartChars (started ++ line)).head? = some '#' then joinLines [] .outside rest
      else
        let (text, final) := scan place line
        match final with
        | none => (started ++ text) :: joinLines [] .outside rest
        | some .outside => withoutLineEnd (started ++ line) :: joinLines [] .outside rest
        | some place => joinLines (started ++ line) place rest

/-! ## Values -/

inductive Quotes where
  | none
  | double
  | single
  deriving DecidableEq, Repr

inductive Naming where
  | bare
  | braced
  deriving DecidableEq, Repr

structure Draft where
  quotes : Quotes := .none
  escaped : Bool := false
  /-- Whether only blanks and a comment may follow. -/
  ended : Bool := false
  naming : Option Naming := none
  name : List Char := []
  text : List Char := []

namespace Draft

instance : Inhabited Draft := ⟨{}⟩

def push (draft : Draft) (c : Char) : Draft :=
  { draft with text := draft.text ++ [c] }

def substitute (draft : Draft) (env : Variables) : Draft :=
  let value := (env.lookup (String.ofList draft.name)).getD ""
  { draft with text := draft.text ++ value.toList, name := [], naming := none }

def readName (env : Variables) (draft : Draft) (naming : Naming) (c : Char) : Draft :=
  if isNameChar c then { draft with name := draft.name ++ [c] }
  else
    match naming with
    | .braced =>
        if c = '\x7d' then draft.substitute env
        else { draft with name := draft.name ++ [c] }
    | .bare =>
        if c = '\x7b' ∧ draft.name.isEmpty then { draft with naming := some .braced }
        else
          let draft := draft.substitute env
          if c = '$' then { draft with naming := some .bare } else draft.push c

def readEscaped? (draft : Draft) (c : Char) : Option Draft :=
  let draft := { draft with escaped := false }
  if c = 'n' then some (draft.push '\n')
  else if c = '\\' ∨ c = '\'' ∨ c = '"' ∨ c = '$' ∨ c = ' ' then some (draft.push c)
  else none

def readPlain (draft : Draft) (c : Char) : Draft :=
  if c = '$' then { draft with naming := some .bare }
  else if c = '\\' then { draft with escaped := true }
  else if c = '"' then
    { draft with quotes := if draft.quotes = .double then .none else .double }
  else if draft.quotes = .double then draft.push c
  else if c = '\'' then { draft with quotes := .single }
  else if c = ' ' ∨ c = '\t' then { draft with ended := true }
  else draft.push c

def read? (env : Variables) (draft : Draft) : List Char → Option Draft
  | [] => some draft
  | c :: rest =>
      if draft.ended then
        if c = ' ' ∨ c = '\t' then read? env draft rest
        else if c = '#' then some draft
        else none
      else if draft.escaped then
        match draft.readEscaped? c with
        | none => none
        | some draft => read? env draft rest
      else if draft.quotes = .single then
        if c = '\'' then read? env { draft with quotes := .none } rest
        else read? env (draft.push c) rest
      else
        match draft.naming with
        | some naming => read? env (draft.readName env naming c) rest
        | none => read? env (draft.readPlain c) rest

end Draft

def value? (env : Variables) (chars : List Char) : Option String := do
  let draft ← Draft.read? env {} chars
  if draft.quotes = .none ∧ draft.naming ≠ some .braced then
    return String.ofList (draft.substitute env).text
  else none

/-! ## Assignments -/

def isKeyChar (c : Char) : Bool :=
  c.isAlphanum || c = '_' || c = '.'

def key? (chars : List Char) : Option (List Char × List Char) :=
  match chars with
  | [] => none
  | c :: _ =>
      if c.isAlpha || c = '_' then
        some (chars.takeWhile isKeyChar, Text.trimStartChars (chars.dropWhile isKeyChar))
      else none

/-- The name of an assignment and what stands behind its equals sign. The word
`export` may stand in front. -/
def target? (chars : List Char) : Option (List Char × List Char) := do
  let (key, rest) ← key? chars
  match rest with
  | '=' :: rest => return (key, rest)
  | rest =>
      if key = "export".toList then
        let (key, rest) ← key? rest
        let rest ← Text.behind? '=' rest
        return (key, rest)
      else none

inductive Line where
  | blank
  | assignment (name value : String)
  deriving DecidableEq, Repr

def line? (env : Variables) (chars : List Char) : Option Line :=
  let chars := Text.trimStartChars chars
  if chars.isEmpty ∨ chars.head? = some '#' then some .blank
  else do
    let (name, rest) ← target? chars
    let rest := Text.trimStartChars rest
    let name := String.ofList name
    if rest.isEmpty ∨ rest.head? = some '#' then return .assignment name ""
    else
      let value ← value? env rest
      return .assignment name value

def set (env : Variables) (name value : String) : Variables :=
  if (env.lookup name).isSome then env else env ++ [(name, value)]

/-- Adds the assignments of lines up to the first that is none. -/
def addLines (env : Variables) : List (List Char) → Variables
  | [] => env
  | line :: rest =>
      match line? env line with
      | none => env
      | some .blank => addLines env rest
      | some (.assignment name value) => addLines (set env name value) rest

def byteLines : Bytes → List Bytes
  | [] => []
  | byte :: rest =>
      if byte = 0x0A then [byte] :: byteLines rest
      else
        match byteLines rest with
        | [] => [[byte]]
        | line :: lines => (byte :: line) :: lines

/-- The lines of a file up to the first that is no text. -/
def textLines (content : Bytes) : List (List Char) :=
  let lines := ((byteLines content).map Text.ofUtf8?).takeWhile Option.isSome
  lines.filterMap fun line => line.map String.toList

def withoutMark : List (List Char) → List (List Char)
  | ('\ufeff' :: line) :: rest => line :: rest
  | lines => lines

def load (env : Variables) (content : Bytes) : Variables :=
  addLines env (joinLines [] .outside (withoutMark (textLines content)))

end WebhookRelay.EnvFile
