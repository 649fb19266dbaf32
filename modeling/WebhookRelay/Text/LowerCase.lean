import WebhookRelay.Text.CaseTable

/-!
# Lower case

Full lower-casing of a text. Two characters need more than the table: the dotted
capital I becomes two characters, and a capital sigma takes its final form when a
cased letter stands before it and none after it, ignorable characters skipped.
-/

set_option autoImplicit false

namespace WebhookRelay.Text

def inRanges (ranges : List (Nat × Nat)) (n : Nat) : Bool :=
  ranges.any fun range => range.1 ≤ n && n ≤ range.2

def isCased (c : Char) : Bool :=
  inRanges casedRanges c.toNat

def isCaseIgnorable (c : Char) : Bool :=
  inRanges caseIgnorableRanges c.toNat

def lowerPartner (c : Char) : Char :=
  let n := c.toNat
  if n < 128 then c.toLower
  else
    match lowerRuns.find? fun (first, last, step, _) =>
        first ≤ n && n ≤ last && (n - first) % step == 0 with
    | some (_, _, _, distance) => Char.ofNat ((n : Int) + distance).toNat
    | none => c

/-- Whether the nearest character that is not ignorable is a cased letter. -/
def casedNext (context : List Char) : Bool :=
  match context.dropWhile isCaseIgnorable with
  | [] => false
  | c :: _ => isCased c

/-- Lower case of one character between the text before it (nearest first) and the
text after it. -/
def lowerInContext (before : List Char) (c : Char) (after : List Char) : List Char :=
  if c = 'İ' then ['i', '\u0307']
  else if c = 'Σ' then
    if casedNext before && !casedNext after then ['ς'] else ['σ']
  else [lowerPartner c]

def lowerFrom (before : List Char) : List Char → List Char
  | [] => []
  | c :: after => lowerInContext before c after ++ lowerFrom (c :: before) after

def lowerCase (text : String) : String :=
  String.ofList (lowerFrom [] text.toList)

end WebhookRelay.Text
