import WebhookRelay.Text.Bytes
import WebhookRelay.Text.Split

/-!
# Environment blocks

A block holds one variable after the other, each as a name, an equals sign and a value
and ended by a zero byte.
-/

set_option autoImplicit false

namespace WebhookRelay.Environment

/-- A variable; the name may begin with an equals sign, and then goes on to the next. -/
def assignment? (entry : List Char) : Option (String × String) :=
  let name := entry.take 1 ++ (entry.drop 1).takeWhile (· ≠ '=')
  match entry.drop name.length with
  | '=' :: value => some (String.ofList name, String.ofList value)
  | _ => none

/-- The variables of a block that is UTF-8 text; of a name that occurs again the first
one counts. -/
def ofBlock (block : Bytes) : List (String × String) :=
  match Text.ofUtf8? block with
  | none => []
  | some text => (Text.splitOn '\x00' text.toList).filterMap assignment?

end WebhookRelay.Environment
