import WebhookRelay.Crypto.Sha256

/-!
# DER signatures

A signature is a sequence of two integers, each positive and written with the
fewest bytes. Both are below 2^256, so every length takes one byte, and nothing may
follow the sequence.
-/

set_option autoImplicit false

namespace WebhookRelay.Der

/-- The number of a positive integer's content bytes, if they are minimal. -/
def positive? : Bytes → Option Nat
  | [] => none
  | [byte] => if byte < 0x80 then some byte.toNat else none
  | first :: second :: rest =>
      if 0x80 ≤ first ∨ (first = 0 ∧ second < 0x80) then none
      else some (Sha256.ofBigEndian (first :: second :: rest))

def integer? : Bytes → Option (Nat × Bytes)
  | tag :: length :: rest =>
      if tag = 0x02 ∧ length < 0x80 ∧ length.toNat ≤ rest.length then
        (positive? (rest.take length.toNat)).map fun n => (n, rest.drop length.toNat)
      else none
  | _ => none

def pair? : Bytes → Option (Nat × Nat)
  | tag :: length :: rest =>
      if tag = 0x30 ∧ length < 0x80 ∧ length.toNat = rest.length then do
        let (r, rest) ← integer? rest
        let (s, rest) ← integer? rest
        if rest.isEmpty ∧ r < Nat.pow 2 256 ∧ s < Nat.pow 2 256 then some (r, s) else none
      else none
  | _ => none

def content (n : Nat) : Bytes :=
  match (Sha256.bigEndian 32 n).dropWhile (· = 0) with
  | [] => [0]
  | first :: rest => if 0x80 ≤ first then 0 :: first :: rest else first :: rest

def integer (n : Nat) : Bytes :=
  0x02 :: UInt8.ofNat (content n).length :: content n

def pair (r s : Nat) : Bytes :=
  let body := integer r ++ integer s
  0x30 :: UInt8.ofNat body.length :: body

end WebhookRelay.Der
