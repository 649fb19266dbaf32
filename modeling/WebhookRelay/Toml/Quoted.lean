import WebhookRelay.Text.Hex

/-!
# Quoted texts in TOML

Two kinds of quotes: behind double ones a backslash starts an escape, behind single
ones it stands for itself. Three quotes in a row open a text of several lines, which
they also close; one or two more quotes right before them belong to the text.
-/

set_option autoImplicit false

namespace WebhookRelay.Toml

/-- Characters that may stand for themselves: no control character but the tab. -/
def isPlain (c : Char) : Bool :=
  c = '\t' || (0x20 ≤ c.toNat && c.toNat ≠ 0x7F)

def isSpace (c : Char) : Bool :=
  c = ' ' || c = '\t'

def before? (c : Option Char) (part : Option (List Char × List Char)) :
    Option (List Char × List Char) := do
  let c ← c
  let (text, rest) ← part
  return (c :: text, rest)

/-! ## Where a text ends -/

def closeLine? (quote : Char) : List Char → Option (List Char × List Char)
  | [] => none
  | '\\' :: c :: rest =>
      if quote = '"' then
        if isPlain c then before? (some '\\') (before? (some c) (closeLine? quote rest)) else none
      else if c = quote then some (['\\'], rest)
      else if isPlain c then before? (some '\\') (before? (some c) (closeLine? quote rest))
      else none
  | c :: rest =>
      if c = quote then some ([], rest)
      else if isPlain c then before? (some c) (closeLine? quote rest)
      else none

def quotesAhead (quote : Char) (chars : List Char) : Nat :=
  (chars.takeWhile (· = quote)).length

def closeLines? (quote : Char) : List Char → Option (List Char × List Char)
  | [] => none
  | c :: rest =>
      let ahead := quotesAhead quote (c :: rest)
      if 3 ≤ ahead then
        let own := min (ahead - 3) 2
        some (List.replicate own quote, rest.drop (own + 2))
      else if c = '\r' ∧ rest.head? ≠ some '\n' then none
      else if c = '\\' ∧ quote = '"' then
        match rest with
        | '"' :: rest => before? (some c) (before? (some '"') (closeLines? quote rest))
        | '\\' :: rest => before? (some c) (before? (some '\\') (closeLines? quote rest))
        | rest => before? (some c) (closeLines? quote rest)
      else if isPlain c || c = '\n' || c = '\r' then before? (some c) (closeLines? quote rest)
      else none

/-! ## What a raw text stands for -/

/-- The character that a hexadecimal escape names: no half of a pair. -/
def namedChar? (digits : List Char) : Option Char := do
  let n ← Hex.number? digits
  if n.isValidChar then some (Char.ofNat n) else none

def simpleEscape? : Char → Option Char
  | 'b' => some '\x08'
  | 't' => some '\t'
  | 'n' => some '\n'
  | 'f' => some '\x0c'
  | 'r' => some '\r'
  | 'e' => some '\x1b'
  | '"' => some '"'
  | '\\' => some '\\'
  | _ => none

def plainLines : List Char → List Char
  | '\r' :: '\n' :: rest => '\n' :: plainLines rest
  | c :: rest => c :: plainLines rest
  | [] => []

def restIsBlank (chars : List Char) : Bool :=
  (chars.dropWhile isSpace).head? = some '\n'

def andThen? (c : Option Char) (rest : Option (List Char)) : Option (List Char) := do
  let c ← c
  let rest ← rest
  return c :: rest

/-- Resolves the escapes of a raw text. A backslash at the end of a line joins the
line with the next text; `joining` says that blanks are being skipped for that. -/
def unescape? (joining : Bool) : List Char → Option (List Char)
  | [] => some []
  | '\\' :: 'x' :: a :: b :: rest => andThen? (namedChar? [a, b]) (unescape? false rest)
  | '\\' :: 'u' :: a :: b :: c :: d :: rest =>
      andThen? (namedChar? [a, b, c, d]) (unescape? false rest)
  | '\\' :: 'U' :: a :: b :: c :: d :: e :: f :: g :: h :: rest =>
      andThen? (namedChar? [a, b, c, d, e, f, g, h]) (unescape? false rest)
  | '\\' :: c :: rest =>
      if restIsBlank (c :: rest) then unescape? true rest
      else andThen? (simpleEscape? c) (unescape? false rest)
  | c :: rest =>
      if joining && (isSpace c || c = '\n') then unescape? true rest
      else andThen? (some c) (unescape? false rest)

/-- A text of several lines does not begin with the end of its first line. -/
def dropLineEnd : List Char → List Char
  | '\n' :: rest => rest
  | chars => chars

/-! ## Reading -/

def withText? (decode : List Char → Option (List Char))
    (part : Option (List Char × List Char)) : Option (String × List Char) := do
  let (raw, rest) ← part
  let text ← decode raw
  return (String.ofList text, rest)

def quotedLine? : List Char → Option (String × List Char)
  | '"' :: rest => withText? (unescape? false) (closeLine? '"' rest)
  | '\'' :: rest => withText? some (closeLine? '\'' rest)
  | _ => none

def quoted? : List Char → Option (String × List Char)
  | '"' :: '"' :: '"' :: rest =>
      withText? (fun raw => unescape? false (dropLineEnd (plainLines raw))) (closeLines? '"' rest)
  | '\'' :: '\'' :: '\'' :: rest =>
      withText? (fun raw => some (dropLineEnd (plainLines raw))) (closeLines? '\'' rest)
  | chars => quotedLine? chars

end WebhookRelay.Toml
