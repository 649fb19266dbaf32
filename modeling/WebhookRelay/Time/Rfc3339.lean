import WebhookRelay.Time.Timestamp
import WebhookRelay.Text.Blank

/-!
# RFC 3339 text

Written times end in `Z`, have no fraction or the shortest of three, six and nine
digits that is exact, and write a leap second as second 60. Reading is lenient:
fields may lack leading zeros and follow blanks, the separator may be a space, the
zone may be `UTC` or an offset with or without a colon, and digits beyond
nanoseconds are dropped.
-/

set_option autoImplicit false

namespace WebhookRelay.Rfc3339

open Calendar

def yearChars (year : Int) : List Char :=
  if 0 ≤ year ∧ year ≤ 9999 then Decimal.padded 4 year.toNat
  else (if year < 0 then '-' else '+') :: Decimal.padded 4 year.natAbs

def fractionChars (nanos : Nat) : List Char :=
  if nanos = 0 then []
  else if nanos % 1000000 = 0 then '.' :: Decimal.padded 3 (nanos / 1000000)
  else if nanos % 1000 = 0 then '.' :: Decimal.padded 6 (nanos / 1000)
  else '.' :: Decimal.padded 9 nanos

def chars (t : Timestamp) : List Char :=
  let date := Date.ofDayNumber (t.seconds / Timestamp.secondsPerDay)
  let second := (t.seconds % Timestamp.secondsPerDay).toNat
  yearChars date.year ++ '-' :: Decimal.padded 2 date.month ++
    '-' :: Decimal.padded 2 date.day ++
    'T' :: Decimal.padded 2 (second / 3600) ++
    ':' :: Decimal.padded 2 (second / 60 % 60) ++
    ':' :: Decimal.padded 2 (second % 60 + t.nanos / nanosPerSecond) ++
    fractionChars (t.nanos % nanosPerSecond) ++ ['Z']

def render (t : Timestamp) : String :=
  String.ofList (chars t)

def number? (width : Nat) (text : List Char) : Option (Nat × List Char) :=
  let digits := (text.take width).takeWhile Decimal.isDigit
  if digits.isEmpty then none else some (Decimal.ofDigits digits, text.drop digits.length)

def longNumber? (text : List Char) : Option (Nat × List Char) :=
  let digits := text.takeWhile Decimal.isDigit
  if digits.isEmpty then none else some (Decimal.ofDigits digits, text.drop digits.length)

/-- A year: up to four digits, or a sign and any number of them. -/
def year? (text : List Char) : Option (Int × List Char) :=
  match Text.trimStartChars text with
  | '-' :: rest => (longNumber? rest).map fun (n, rest) => (-(n : Int), rest)
  | '+' :: rest => (longNumber? rest).map fun (n, rest) => ((n : Int), rest)
  | rest => (number? 4 rest).map fun (n, rest) => ((n : Int), rest)

/-- One or two digits behind blanks, up to a bound. -/
def field? (bound : Nat) (text : List Char) : Option (Nat × List Char) := do
  let (n, rest) ← number? 2 (Text.trimStartChars text)
  if n ≤ bound then some (n, rest) else none

def mark? (c : Char) (text : List Char) : Option (List Char) :=
  match Text.trimStartChars text with
  | first :: rest => if first = c then some rest else none
  | [] => none

def separator? : List Char → Option (List Char)
  | c :: rest => if c = 'T' ∨ c = 't' ∨ c = ' ' then some rest else none
  | [] => none

/-- Up to nine digits behind a point as nanoseconds, further digits dropped. -/
def nanos? : List Char → Option (Nat × List Char)
  | '.' :: rest => do
      let (n, after) ← number? 9 rest
      let used := rest.length - after.length
      return (n * Nat.pow 10 (9 - used), after.dropWhile Decimal.isDigit)
  | rest => some (0, rest)

def isOffsetGap (c : Char) : Bool :=
  c = ':' || Text.isBlank c

def twoDigits? : List Char → Option (Nat × List Char)
  | a :: b :: rest =>
      if Decimal.isDigit a && Decimal.isDigit b then
        some (Decimal.ofDigits [a, b], rest)
      else none
  | _ => none

def offsetSeconds? (text : List Char) : Option (Nat × List Char) := do
  let (hours, rest) ← twoDigits? text
  let (minutes, rest) ← twoDigits? (rest.dropWhile isOffsetGap)
  if minutes < 60 then some (hours * 3600 + minutes * 60, rest) else none

def minusSigns : List Char := ['-', '−']

def zone? (text : List Char) : Option (Int × List Char) :=
  match text with
  | [] => none
  | c :: rest =>
      if String.ofList ((text.take 3).map Char.toLower) = "utc" then some (0, text.drop 3)
      else if c = 'Z' ∨ c = 'z' then some (0, rest)
      else if c = '+' then (offsetSeconds? rest).map fun (n, rest) => ((n : Int), rest)
      else if minusSigns.contains c then
        (offsetSeconds? rest).map fun (n, rest) => (-(n : Int), rest)
      else none

structure Fields where
  date : Date
  hour : Nat
  minute : Nat
  second : Nat
  nanos : Nat
  offset : Int

def fields? (text : List Char) : Option (Fields × List Char) := do
  let (year, rest) ← year? text
  let rest ← mark? '-' rest
  let (month, rest) ← field? 12 rest
  let rest ← mark? '-' rest
  let (day, rest) ← field? 31 rest
  let rest ← separator? rest
  let (hour, rest) ← field? 23 rest
  let rest ← mark? ':' rest
  let (minute, rest) ← field? 59 rest
  let rest ← mark? ':' rest
  let (second, rest) ← field? 60 rest
  let (nanos, rest) ← nanos? rest
  let (offset, rest) ← zone? (Text.trimStartChars rest)
  return ({ date := ⟨year, month, day⟩, hour, minute, second, nanos, offset }, rest)

/-- Second 60 is the leap second behind second 59 of any minute. -/
def Fields.timestamp? (fields : Fields) : Option Timestamp :=
  if fields.date.isValid ∧ fields.offset.natAbs < 86400 then
    let leap := if fields.second = 60 then 1 else 0
    Timestamp.checked
      (fields.date.dayNumber * Timestamp.secondsPerDay +
        (fields.hour * 3600 + fields.minute * 60 + (fields.second - leap) : Nat) -
        fields.offset)
      (leap * nanosPerSecond + fields.nanos)
  else none

def ofChars? (text : List Char) : Option Timestamp := do
  let (fields, rest) ← fields? text
  if rest.all Text.isBlank then fields.timestamp? else none

def parse? (text : String) : Option Timestamp :=
  ofChars? text.toList

end WebhookRelay.Rfc3339
