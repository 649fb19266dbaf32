import WebhookRelay.Number.Decimal
import WebhookRelay.Text.Split
import WebhookRelay.Time.Calendar

/-!
# Date-times in TOML

A date, a time of day, or both with or without an offset. Reading gives the written
form: a capital letter between date and time, an offset of `Z` or of hours and
minutes, and a fraction without trailing zeros.
-/

set_option autoImplicit false

namespace WebhookRelay.Toml.DateTime

open Decimal

/-- A number of exactly `width` digits up to a limit, and what stands behind it. -/
def field? (width limit : Nat) (chars : List Char) : Option (Nat × List Char) :=
  let digits := chars.take width
  if digits.length = width ∧ digits.all isDigit ∧ ofDigits digits ≤ limit then
    some (ofDigits digits, chars.drop width)
  else none

def date? (chars : List Char) : Option (List Char × List Char) := do
  let (year, rest) ← field? 4 9999 chars
  let rest ← Text.behind? '-' rest
  let (month, rest) ← field? 2 12 rest
  let rest ← Text.behind? '-' rest
  let (day, rest) ← field? 2 31 rest
  let date : Calendar.Date := { year, month, day }
  if date.isValid then
    return (padded 4 year ++ '-' :: padded 2 month ++ '-' :: padded 2 day, rest)
  else none

/-- A fraction of a second: nine digits count and trailing zeros do not, but one digit
stays. -/
def fraction (digits : List Char) : List Char :=
  let significant := ((digits.take 9).reverse.dropWhile (· = '0')).reverse
  '.' :: if significant.isEmpty then ['0'] else significant

def fraction? : List Char → Option (List Char × List Char)
  | '.' :: rest =>
      let digits := rest.takeWhile isDigit
      if digits.isEmpty then none else some (fraction digits, rest.dropWhile isDigit)
  | chars => some ([], chars)

def seconds? : List Char → Option (List Char × List Char)
  | ':' :: rest => do
      let (second, rest) ← field? 2 60 rest
      let (part, rest) ← fraction? rest
      return (':' :: padded 2 second ++ part, rest)
  | chars => some ([], chars)

def time? (chars : List Char) : Option (List Char × List Char) := do
  let (hour, rest) ← field? 2 23 chars
  let rest ← Text.behind? ':' rest
  let (minute, rest) ← field? 2 59 rest
  let (part, rest) ← seconds? rest
  return (padded 2 hour ++ ':' :: padded 2 minute ++ part, rest)

def offsetOf? (sign : Char) (chars : List Char) : Option (List Char) := do
  let (hours, rest) ← field? 2 23 chars
  let rest ← Text.behind? ':' rest
  let (minutes, rest) ← field? 2 59 rest
  let sign := if hours = 0 ∧ minutes = 0 then '+' else sign
  if rest.isEmpty then return sign :: padded 2 hours ++ ':' :: padded 2 minutes else none

def offset? : List Char → Option (List Char)
  | [] => some []
  | ['Z'] => some ['Z']
  | ['z'] => some ['Z']
  | '+' :: rest => offsetOf? '+' rest
  | '-' :: rest => offsetOf? '-' rest
  | _ => none

def isDelimiter (c : Char) : Bool :=
  c = 'T' || c = 't' || c = ' '

def normal? (chars : List Char) : Option (List Char) :=
  match date? chars with
  | some (date, []) => some date
  | some (date, delimiter :: rest) => do
      if !isDelimiter delimiter then none
      let (time, rest) ← time? rest
      let offset ← offset? rest
      return date ++ 'T' :: time ++ offset
  | none =>
      match time? chars with
      | some (time, []) => some time
      | _ => none

end WebhookRelay.Toml.DateTime
