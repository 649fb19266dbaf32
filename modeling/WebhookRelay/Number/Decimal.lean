/-!
# Decimal integers

Writing a natural number or an integer with the fewest digits, and reading
integers with an optional sign, as configuration values and signature timestamps
are read.
-/

set_option autoImplicit false

namespace WebhookRelay.Decimal

def digit (n : Nat) : Char :=
  Char.ofNat (48 + n % 10)

def isDigit (c : Char) : Bool :=
  48 ≤ c.toNat && c.toNat ≤ 57

def digitValue (c : Char) : Nat :=
  c.toNat - 48

def digits (n : Nat) : List Char :=
  if n < 10 then [digit n] else digits (n / 10) ++ [digit n]
termination_by n

def ofDigits (chars : List Char) : Nat :=
  chars.foldl (fun total c => total * 10 + digitValue c) 0

def signedDigits : Int → List Char
  | .ofNat n => digits n
  | .negSucc n => '-' :: digits (n + 1)

def ofNat (n : Nat) : String :=
  String.ofList (digits n)

def ofInt (n : Int) : String :=
  String.ofList (signedDigits n)

def padded (width n : Nat) : List Char :=
  let body := digits n
  List.replicate (width - body.length) '0' ++ body

def nat? (chars : List Char) : Option Nat :=
  if !chars.isEmpty && chars.all isDigit then some (ofDigits chars) else none

/-- An optional single sign and one or more digits. -/
def int? : List Char → Option Int
  | '-' :: rest => (nat? rest).map fun n => -(n : Int)
  | '+' :: rest => (nat? rest).map fun n => (n : Int)
  | chars => (nat? chars).map fun n => (n : Int)

def int64Min : Int := -9223372036854775808

def int64Max : Int := 9223372036854775807

def uint64Max : Nat := 18446744073709551615

def uint32Max : Nat := 4294967295

def uint16Max : Nat := 65535

def inInt64 (n : Int) : Bool :=
  int64Min ≤ n && n ≤ int64Max

def int64? (chars : List Char) : Option Int :=
  (int? chars).filter inInt64

theorem digits_of_lt {n : Nat} (small : n < 10) : digits n = [digit n] := by
  rw [digits, if_pos small]

theorem digits_ne_nil (n : Nat) : digits n ≠ [] := by
  rw [digits]
  split <;> simp

end WebhookRelay.Decimal
