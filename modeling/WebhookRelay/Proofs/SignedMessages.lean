import WebhookRelay.Proofs.Verdicts
import WebhookRelay.Proofs.WrittenIntegers

/-!
# What a signature covers

The time of signing and the body can be read back from the bytes that a signature covers.  No
point stands in a written integer, so the first point of a message ends the time, and whatever
comes behind it is the body, digits, signs and points included.  The bytes are therefore those
of one time and one body, and a request that is verified is for the pair that was signed.
-/

set_option autoImplicit false

namespace WebhookRelay

/-! ## Characters as bytes -/

namespace Text

def byteOf (c : Char) : UInt8 :=
  UInt8.ofNat c.toNat

def charOf (byte : UInt8) : Char :=
  Char.ofNat byte.toNat

theorem toNat_byteOf {c : Char} (small : c.toNat < 256) : (byteOf c).toNat = c.toNat :=
  UInt8.toNat_ofNat_of_lt small

theorem charOf_byteOf {c : Char} (small : c.toNat < 256) : charOf (byteOf c) = c := by
  rw [charOf, toNat_byteOf small, Char.ofNat_toNat]

end Text

theorem Decimal.code_of_mem_signedDigits {n : Int} {c : Char} (member : c ∈ signedDigits n) :
    c.toNat = 45 ∨ 48 ≤ c.toNat ∧ c.toNat ≤ 57 := by
  rcases mem_signedDigits member with rfl | digit
  · exact Or.inl rfl
  · exact Or.inr (by simpa [isDigit] using digit)

/-! ## Reading a message -/

/-- The time before the first point of a message and the body behind it. -/
def readMessage? (message : Bytes) : Option (Int × Bytes) :=
  match message.dropWhile (· ≠ 0x2E) with
  | [] => none
  | _ :: body =>
      (Decimal.int? ((message.takeWhile (· ≠ 0x2E)).map Text.charOf)).map fun timestamp =>
        (timestamp, body)

section Messages

variable {timestamp other : Int} {body otherBody : Bytes}

theorem signedMessage_eq : signedMessage timestamp body =
    (Decimal.signedDigits timestamp).map Text.byteOf ++ 0x2E :: body := rfl

theorem ne_point_of_mem {byte : UInt8}
    (member : byte ∈ (Decimal.signedDigits timestamp).map Text.byteOf) : byte ≠ 0x2E := by
  obtain ⟨c, written, rfl⟩ := List.mem_map.mp member
  have code := Decimal.code_of_mem_signedDigits written
  intro point
  have value : (Text.byteOf c).toNat = 46 := congrArg UInt8.toNat point
  rw [Text.toNat_byteOf (by omega)] at value
  omega

theorem map_charOf_byteOf (n : Int) :
    ((Decimal.signedDigits n).map Text.byteOf).map Text.charOf = Decimal.signedDigits n := by
  rw [List.map_map, List.map_congr_left, List.map_id]
  intro c written
  have code := Decimal.code_of_mem_signedDigits written
  exact Text.charOf_byteOf (by omega)

theorem readMessage?_signedMessage :
    readMessage? (signedMessage timestamp body) = some (timestamp, body) := by
  have before : ∀ byte ∈ (Decimal.signedDigits timestamp).map Text.byteOf,
      decide (byte ≠ 0x2E) = true :=
    fun byte member => decide_eq_true (ne_point_of_mem member)
  have read : Decimal.int? (Decimal.signedDigits timestamp) = some timestamp :=
    Decimal.int?_eq_some_iff.mpr (Decimal.names_signedDigits timestamp)
  rw [readMessage?, signedMessage_eq, List.dropWhile_append_of_pos before,
    List.takeWhile_append_of_pos before, List.dropWhile_cons_of_neg (by decide),
    List.takeWhile_cons_of_neg (by decide), List.append_nil, map_charOf_byteOf, read]
  rfl

theorem signedMessage_inj : signedMessage timestamp body = signedMessage other otherBody ↔
    timestamp = other ∧ body = otherBody := by
  constructor
  · intro same
    have read : some (timestamp, body) = some (other, otherBody) := by
      rw [← readMessage?_signedMessage, same, readMessage?_signedMessage]
    exact Prod.mk.inj (Option.some.inj read)
  · rintro ⟨rfl, rfl⟩
    rfl

end Messages

/-! ## Verified requests -/

/-- The bytes that a request has its signature verified over: those of the time that is reported
and of its body. -/
def Verified.covered? (verified : Verified) (body : Bytes) : Option Bytes :=
  verified.timestamp.map fun timestamp => signedMessage timestamp body

namespace Verifier

structure Accepts (verifier : Verifier) (world : World) (now : Int) (claim : SignatureClaim)
    (body : Bytes) (verified : Verified) : Prop where
  checks : verifier.skip = false
  run : ∃ after, (verifier.verify now claim body).outcome.run world = some (.ok verified, after)

variable {verifier : Verifier} {world : World} {now : Int} {claim : SignatureClaim}
  {body : Bytes} {verified : Verified}

/-- A request that is accepted presents a signature of its own body, and the time of signing is
reported. -/
theorem Accepts.signs (accepts : verifier.Accepts world now claim body verified) :
    ∃ signature keyId header key,
      verifier.Signs world now claim body signature keyId header key ∧
        verified.timestamp = some header.timestamp := by
  obtain ⟨checks, after, run⟩ := accepts
  obtain ⟨signature, keyId, header, key, looked, presents, looks, verifies, _, rfl⟩ :=
    checks_of_accepted checks run
  exact ⟨signature, keyId, header, key,
    ⟨presents, World.yields_iff.mpr ⟨looked, looks⟩, verifies⟩, rfl⟩

theorem Accepts.covered (accepts : verifier.Accepts world now claim body verified) :
    ∃ signature keyId header key message,
      verifier.Presents now claim signature keyId header ∧ world.Yields keyId key ∧
      verified.covered? body = some message ∧ key.verifies message header.signature = true := by
  obtain ⟨signature, keyId, header, key, ⟨presents, yields, verifies⟩, reported⟩ := accepts.signs
  refine ⟨signature, keyId, header, key, _, presents, yields, ?_, verifies⟩
  rw [Verified.covered?, reported]
  rfl

theorem Accepts.same_pair {other : Verifier} {otherWorld : World} {otherNow : Int}
    {otherClaim : SignatureClaim} {otherBody : Bytes} {otherVerified : Verified}
    (accepts : verifier.Accepts world now claim body verified)
    (again : other.Accepts otherWorld otherNow otherClaim otherBody otherVerified)
    (same : verified.covered? body = otherVerified.covered? otherBody) :
    verified.timestamp = otherVerified.timestamp ∧ body = otherBody := by
  obtain ⟨_, _, header, _, _, reported⟩ := accepts.signs
  obtain ⟨_, _, otherHeader, _, _, alsoReported⟩ := again.signs
  rw [Verified.covered?, Verified.covered?, reported, alsoReported] at same
  obtain ⟨timestamps, bodies⟩ := signedMessage_inj.mp (Option.some.inj same)
  rw [reported, alsoReported, timestamps]
  exact ⟨rfl, bodies⟩

end Verifier

/-- The bytes that a signature covers are those of one time and one body.  A request is
accepted only if a key that the cache yields verifies the signature that it presents, over the
bytes of the time that is reported and of its own body.  Whatever the verifiers, the times and
the keys, two requests that are accepted for the same bytes have the same time and the same
body, so that what was signed for one pair is never taken for another. -/
theorem signed_bytes_are_of_one_request :
    (∀ timestamp other body otherBody,
      signedMessage timestamp body = signedMessage other otherBody ↔
        timestamp = other ∧ body = otherBody) ∧
    (∀ (verifier : Verifier) world now claim body verified,
      verifier.Accepts world now claim body verified →
      ∃ signature keyId header key message,
        verifier.Presents now claim signature keyId header ∧ world.Yields keyId key ∧
        verified.covered? body = some message ∧
        key.verifies message header.signature = true) ∧
    ∀ (verifier : Verifier) world now claim body verified (other : Verifier) otherWorld otherNow
        otherClaim otherBody otherVerified,
      verifier.Accepts world now claim body verified →
      other.Accepts otherWorld otherNow otherClaim otherBody otherVerified →
      verified.covered? body = otherVerified.covered? otherBody →
      verified.timestamp = otherVerified.timestamp ∧ body = otherBody := by
  refine ⟨?_, ?_, ?_⟩
  · intro timestamp other body otherBody
    exact signedMessage_inj
  · intro verifier world now claim body verified accepts
    exact accepts.covered
  · intro verifier world now claim body verified other otherWorld otherNow otherClaim otherBody
      otherVerified accepts again same
    exact accepts.same_pair again same

namespace Sample

/-- The signed request is accepted by every verifier that lets signatures be used again. -/
theorem signedRequest_accepted (verifier : Verifier) (checks : verifier.skip = false)
    (hasKeys : verifier.hasKeys = true) (lenient : verifier.nonces = none) : ∃ verified,
    verifier.Accepts keyedWorld signedRequest.now.seconds signedRequest.claim signedRequest.body
      verified ∧ verified.timestamp = some 0 := by
  have unique : keyedWorld.nonces.Unique := List.nodup_nil
  obtain ⟨signature, header, key, presents, known, verifies⟩ :=
    signedRequest_presents verifier hasKeys
  have due : keyedWorld.keys.FetchDue keyedWorld.clock "k" := by
    intro entry cached
    cases cached
  have unspent : verifier.Unspent keyedWorld signature "k" := by
    intro mode counts
    rw [lenient] at counts
    cases counts
  obtain ⟨verified, after, run⟩ := (Verifier.verify_accepts checks unique).mpr
    ⟨signature, "k", header, key, ⟨presents, .fetched due rfl known, verifies⟩, unspent⟩
  have accepts : verifier.Accepts keyedWorld signedRequest.now.seconds signedRequest.claim
      signedRequest.body verified := ⟨checks, after, run⟩
  refine ⟨verified, accepts, ?_⟩
  obtain ⟨_, _, header, _, ⟨presents, _, _⟩, reported⟩ := accepts.signs
  have atZero : (signedRequest.claim.signature.bind fun signature =>
      (SignatureHeader.parse signature).toOption.map SignatureHeader.timestamp) = some 0 := by
    decide +kernel
  rw [presents.signed, Option.bind_some, presents.parsed] at atZero
  exact reported.trans atZero

/-- Digits and points that move from the time to the body make another message; two verifiers
that accept the same bytes report the same time. -/
theorem signed_request_is_for_its_own_body :
    signedMessage 1 [0x32, 0x2E] ≠ signedMessage 12 [0x2E] ∧
      ∃ verified other,
        Verifier.Accepts {} keyedWorld signedRequest.now.seconds signedRequest.claim
          signedRequest.body verified ∧
        Verifier.Accepts { tolerance := .ofSeconds 0 } keyedWorld signedRequest.now.seconds
          signedRequest.claim signedRequest.body other ∧
        (∃ (key : VerifyingKey) (message signature : Bytes),
          verified.covered? signedRequest.body = some message ∧
            key.verifies message signature = true) ∧
        verified.covered? signedRequest.body = other.covered? signedRequest.body ∧
        verified.timestamp = other.timestamp := by
  obtain ⟨pairs, covers, once⟩ := signed_bytes_are_of_one_request
  have apart : signedMessage 1 [0x32, 0x2E] ≠ signedMessage 12 [0x2E] := by
    rw [Ne, pairs]
    decide
  obtain ⟨verified, accepts, atZero⟩ := signedRequest_accepted {} rfl rfl rfl
  obtain ⟨other, again, alsoAtZero⟩ :=
    signedRequest_accepted { tolerance := .ofSeconds 0 } rfl rfl rfl
  obtain ⟨_, _, header, key, message, _, _, covered, verifies⟩ := covers _ _ _ _ _ _ accepts
  have same : verified.covered? signedRequest.body = other.covered? signedRequest.body := by
    rw [Verified.covered?, Verified.covered?, atZero, alsoAtZero]
  obtain ⟨timestamps, _⟩ := once _ _ _ _ _ _ _ _ _ _ _ _ accepts again same
  exact ⟨apart, verified, other, accepts, again,
    ⟨key, message, header.signature, covered, verifies⟩, same, timestamps⟩

end Sample

end WebhookRelay
