/-!
# Splitting text

The parts of a text between separators. There is always one part more than there
are separators, and no part holds a separator.
-/

set_option autoImplicit false

namespace WebhookRelay.Text

def split (isSeparator : Char → Bool) : List Char → List (List Char)
  | [] => [[]]
  | c :: rest =>
      if isSeparator c then [] :: split isSeparator rest
      else
        match split isSeparator rest with
        | [] => [[c]]
        | part :: parts => (c :: part) :: parts

def splitOn (separator : Char) (text : List Char) : List (List Char) :=
  split (· = separator) text

def join (separator : Char) : List (List Char) → List Char
  | [] => []
  | [part] => part
  | part :: rest => part ++ separator :: join separator rest

def behind? (expected : Char) : List Char → Option (List Char)
  | c :: rest => if c = expected then some rest else none
  | [] => none

end WebhookRelay.Text
