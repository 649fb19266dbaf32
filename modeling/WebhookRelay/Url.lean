import WebhookRelay.Text.Bytes
import WebhookRelay.Url.Host

/-!
# Absolute URLs

Reading follows the steps of a web browser: blanks and control characters around the
text and tabs and line ends inside it are dropped, a web scheme may be followed by
any number of slashes, a backslash counts as a slash in it, and dot segments of the
path are resolved. The written form is the normal one.
-/

set_option autoImplicit false

namespace WebhookRelay

structure Authority where
  username : List Char
  password : List Char
  host : Host
  port : Option Nat
  deriving DecidableEq, Repr

/-- A path of segments, or the opaque rest of a URL without slashes. -/
inductive UrlPath where
  | segments (parts : List (List Char))
  | opaqueText (text : List Char)
  deriving DecidableEq, Repr

structure Url where
  scheme : List Char
  authority : Option Authority
  path : UrlPath
  query : Option (List Char)
  fragment : Option (List Char)
  deriving DecidableEq, Repr

namespace Url

inductive SchemeKind where
  | web (defaultPort : Nat)
  | file
  | other
  deriving DecidableEq, Repr

def webSchemes : List (List Char × Nat) :=
  [("http".toList, 80), ("https".toList, 443), ("ws".toList, 80), ("wss".toList, 443),
    ("ftp".toList, 21)]

def schemeKind (scheme : List Char) : SchemeKind :=
  if scheme = "file".toList then .file
  else
    match webSchemes.find? fun entry => entry.1 = scheme with
    | some (_, port) => .web port
    | none => .other

def SchemeKind.isSpecial : SchemeKind → Bool
  | .other => false
  | _ => true

def isAsciiLetter (c : Char) : Bool :=
  c.isAlpha

def isSchemeChar (c : Char) : Bool :=
  isAsciiLetter c || Decimal.isDigit c || c = '+' || c = '-' || c = '.'

def clean (text : List Char) : List Char :=
  let outer (c : Char) : Bool := c.toNat ≤ 0x20
  let trimmed := (((text.dropWhile outer).reverse).dropWhile outer).reverse
  trimmed.filter fun c => !(c = '\t' || c = '\n' || c = '\r')

def splitScheme? (text : List Char) : Option (List Char × List Char) :=
  let scheme := text.takeWhile isSchemeChar
  match scheme, text.dropWhile isSchemeChar with
  | first :: _, ':' :: rest =>
      if isAsciiLetter first then some (scheme.map Char.toLower, rest) else none
  | _, _ => none

def isPathEnd (c : Char) : Bool :=
  c = '?' || c = '#'

def isAuthorityEnd (kind : SchemeKind) (c : Char) : Bool :=
  c = '/' || isPathEnd c || (c = '\\' && kind.isSpecial)

/-- Splits at the last sign of its kind, which belongs to neither part. -/
def splitLast? (sign : Char) (text : List Char) : Option (List Char × List Char) :=
  if text.contains sign then
    let after := (text.reverse.takeWhile (· ≠ sign)).reverse
    some (text.take (text.length - after.length - 1), after)
  else none

def splitHost : (inBrackets : Bool) → List Char → List Char × List Char
  | _, [] => ([], [])
  | inBrackets, c :: rest =>
      if c = ':' ∧ inBrackets = false then ([], c :: rest)
      else
        let inBrackets := if c = '[' then true else if c = ']' then false else inBrackets
        let (host, port) := splitHost inBrackets rest
        (c :: host, port)

/-- The port behind a colon; none where it is missing or the scheme's own. -/
def portOf (kind : SchemeKind) : List Char → Except UrlError (Option Nat)
  | [] => .ok none
  | _ :: [] => .ok none
  | _ :: digits =>
      if digits.all Decimal.isDigit then
        let port := Decimal.ofDigits digits
        if port ≤ 65535 then .ok (if kind = .web port then none else some port)
        else .error .invalidPort
      else .error .invalidPort

def hostOf (kind : SchemeKind) (text : List Char) : Except UrlError Host :=
  match kind with
  | .other => Host.parseOpaque text
  | _ => Host.parse text

def authorityOf (kind : SchemeKind) (text : List Char) : Except UrlError Authority := do
  let (info, rest) := (splitLast? '@' text).getD ([], text)
  let username := info.takeWhile (· ≠ ':')
  let password := (info.dropWhile (· ≠ ':')).drop 1
  let (hostText, portText) := splitHost false rest
  if hostText.isEmpty ∧ (kind.isSpecial ∨ ¬portText.isEmpty ∨ text.contains '@') then
    throw .emptyHost
  let host ← hostOf kind hostText
  let port ← portOf kind portText
  return {
    username := Percent.encode Percent.inUserInfoSet username
    password := Percent.encode Percent.inUserInfoSet password
    host, port }

def isSlash (kind : SchemeKind) (c : Char) : Bool :=
  c = '/' || (c = '\\' && kind.isSpecial)

def splitSlashes (kind : SchemeKind) (text : List Char) : List (List Char) :=
  Text.split (isSlash kind) text

def readPoints : List Char → List Char
  | '%' :: '2' :: 'e' :: rest => '.' :: readPoints rest
  | '%' :: '2' :: 'E' :: rest => '.' :: readPoints rest
  | c :: rest => c :: readPoints rest
  | [] => []

/-- Resolves dot segments; `done` holds the segments so far, last first. -/
def resolve (done : List (List Char)) : List (List Char) → List (List Char)
  | [] => done.reverse
  | part :: rest =>
      let isLast := rest.isEmpty
      if readPoints part = ['.', '.'] then
        let done := done.drop 1
        resolve (if isLast then [] :: done else done) rest
      else if readPoints part = ['.'] then
        resolve (if isLast then [] :: done else done) rest
      else resolve (Percent.encode Percent.inPathSet part :: done) rest

def segmentsOf (kind : SchemeKind) (text : List Char) : List (List Char) :=
  match text with
  | [] => if kind.isSpecial then [[]] else []
  | c :: rest => resolve [] (splitSlashes kind (if isSlash kind c then rest else text))

def splitTail (text : List Char) : List Char × Option (List Char) × Option (List Char) :=
  let path := text.takeWhile fun c => !isPathEnd c
  match text.dropWhile fun c => !isPathEnd c with
  | '?' :: rest =>
      let query := rest.takeWhile (· ≠ '#')
      match rest.dropWhile (· ≠ '#') with
      | _ :: fragment => (path, some query, some fragment)
      | [] => (path, some query, none)
  | _ :: fragment => (path, none, some fragment)
  | [] => (path, none, none)

def build (kind : SchemeKind) (scheme : List Char) (authority : Option Authority)
    (path : List Char → UrlPath) (text : List Char) : Url :=
  let (pathText, query, fragment) := splitTail text
  let querySet := if kind.isSpecial then Percent.inSpecialQuerySet else Percent.inQuerySet
  { scheme, authority
    path := path pathText
    query := query.map (Percent.encode querySet)
    fragment := fragment.map (Percent.encode Percent.inFragmentSet) }

def withSegments (kind : SchemeKind) (text : List Char) : UrlPath :=
  .segments (segmentsOf kind text)

def parseAuthority (kind : SchemeKind) (scheme text : List Char) : Except UrlError Url := do
  let authorityText := text.takeWhile fun c => !isAuthorityEnd kind c
  let rest := text.dropWhile fun c => !isAuthorityEnd kind c
  let authority ← authorityOf kind authorityText
  return build kind scheme (some authority) (withSegments kind) rest

/-- A file URL: its host may be empty and has neither user information nor port. -/
def parseFile (scheme text : List Char) : Except UrlError Url := do
  match text with
  | a :: b :: rest =>
      if isSlash .file a && isSlash .file b then
        let hostText := rest.takeWhile fun c => !isAuthorityEnd .file c
        let tail := rest.dropWhile fun c => !isAuthorityEnd .file c
        let host ← if hostText.isEmpty then .ok (.domain []) else Host.parse hostText
        let host := if host = .domain "localhost".toList then .domain [] else host
        return build .file scheme (some ⟨[], [], host, none⟩) (withSegments .file) tail
      else return build .file scheme (some ⟨[], [], .domain [], none⟩) (withSegments .file) text
  | _ => return build .file scheme (some ⟨[], [], .domain [], none⟩) (withSegments .file) text

def ofChars (text : List Char) : Except UrlError Url :=
  match splitScheme? (clean text) with
  | none => .error .relativeWithoutBase
  | some (scheme, rest) =>
      match schemeKind scheme, rest with
      | .file, rest => parseFile scheme rest
      | .web port, rest =>
          parseAuthority (.web port) scheme (rest.dropWhile fun c => c = '/' || c = '\\')
      | .other, '/' :: '/' :: rest => parseAuthority .other scheme rest
      | .other, '/' :: rest => .ok (build .other scheme none (withSegments .other) ('/' :: rest))
      | .other, rest =>
          .ok (build .other scheme none
            (fun path => .opaqueText (Percent.encode Percent.isControl path)) rest)

def parse (text : String) : Except UrlError Url :=
  ofChars text.toList

def Authority.chars (authority : Authority) : List Char :=
  let password := if authority.password.isEmpty then [] else ':' :: authority.password
  let info := authority.username ++ password
  let port := match authority.port with
    | none => []
    | some port => ':' :: Decimal.digits port
  (if info.isEmpty then [] else info ++ ['@']) ++ authority.host.chars ++ port

def UrlPath.chars : UrlPath → List Char
  | .segments parts => parts.flatMap fun part => '/' :: part
  | .opaqueText text => text

def chars (url : Url) : List Char :=
  let authority := match url.authority with
    | none => []
    | some authority => '/' :: '/' :: Authority.chars authority
  let query := match url.query with
    | none => []
    | some query => '?' :: query
  let fragment := match url.fragment with
    | none => []
    | some fragment => '#' :: fragment
  url.scheme ++ ':' :: authority ++ UrlPath.chars url.path ++ query ++ fragment

def render (url : Url) : String :=
  String.ofList url.chars

def anonymous (url : Url) : Url :=
  { url with authority := url.authority.map fun authority =>
      { authority with username := [], password := [] } }

def hasHost (url : Url) : Bool :=
  url.authority.any fun authority => !authority.host.chars.isEmpty

/-- Whether requests can be sent to the URL. -/
def isHttp (url : Url) : Bool :=
  url.scheme = "http".toList || url.scheme = "https".toList

end Url

end WebhookRelay
