import WebhookRelay.Crypto.Der
import WebhookRelay.Crypto.P256

/-!
# ECDSA on P-256 with SHA-256

Verification accepts both signature values of a pair that differ in the sign of `s`.
Signing derives its nonce from the key and the digest, so equal inputs give equal
signatures.
-/

set_option autoImplicit false

namespace WebhookRelay.Ecdsa

open P256

/-- A signature's two numbers, both from 1 to the order less one. -/
structure Signature where
  r : Nat
  s : Nat
  deriving DecidableEq, Repr, Inhabited

def Signature.isValid (signature : Signature) : Bool :=
  0 < signature.r && signature.r < order && 0 < signature.s && signature.s < order

def Signature.ofDer? (bytes : Bytes) : Option Signature := do
  let (r, s) ← Der.pair? bytes
  let signature : Signature := ⟨r, s⟩
  if signature.isValid then some signature else none

def Signature.der (signature : Signature) : Bytes :=
  Der.pair signature.r signature.s

def messageResidue (message : Bytes) : Nat :=
  Sha256.ofBigEndian (Sha256.digest message) % order

def verifies (key : Point) (message : Bytes) (signature : Signature) : Bool :=
  let w := inverse order signature.s
  let u := messageResidue message * w % order
  let v := signature.r * w % order
  match ((multiply u generator).add (multiply v key)).toPoint? with
  | none => false
  | some point => point.x % order = signature.r

def publicKey? (secret : Nat) : Option Point :=
  (multiply secret generator).toPoint?

structure NonceState where
  key : Bytes
  value : Bytes

def NonceState.update (state : NonceState) (data : Bytes) : NonceState :=
  let key := Sha256.keyed state.key (state.value ++ data)
  ⟨key, Sha256.keyed key state.value⟩

def NonceState.start (secret residue : Nat) : NonceState :=
  let seed := Sha256.bigEndian 32 secret ++ Sha256.bigEndian 32 residue
  let state : NonceState := ⟨List.replicate 32 0, List.replicate 32 1⟩
  (state.update (0 :: seed)).update (1 :: seed)

/-- A signature for one nonce; none when a number of it would be zero. -/
def signWith? (secret residue nonce : Nat) : Option Signature := do
  let point ← (multiply nonce generator).toPoint?
  let r := point.x % order
  let s := inverse order nonce * ((residue + r * secret) % order) % order
  if r ≠ 0 ∧ s ≠ 0 then some ⟨r, s⟩ else none

/-- Tries the next nonces of the generator until one is usable. -/
def signFrom? (secret residue : Nat) : (tries : Nat) → NonceState → Option Signature
  | 0, _ => none
  | tries + 1, state =>
      let value := Sha256.keyed state.key state.value
      let nonce := Sha256.ofBigEndian value
      let found :=
        if 0 < nonce ∧ nonce < order then signWith? secret residue nonce else none
      match found with
      | some signature => some signature
      | none => signFrom? secret residue tries (NonceState.update ⟨state.key, value⟩ [0])

def sign? (secret : Nat) (message : Bytes) : Option Signature :=
  let residue := messageResidue message
  signFrom? secret residue 128 (NonceState.start secret residue)

end WebhookRelay.Ecdsa
