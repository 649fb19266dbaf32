import WebhookRelay.Proofs.Authenticity
import WebhookRelay.Proofs.Marks

/-!
# Signatures are used once

Verifications run side by side and share one store of nonces, while the unix time that
each is begun with is the whole second of a clock that advances with the monotonic one.
A signature is recent during a window that is closed at both ends and counted in whole
seconds, so it spans one second more than twice the tolerance.  A nonce is live for its
time to live, its end excluded.  A signature that is verified only while its nonce is new
is therefore honoured once if nonces outlive the window, and the last second of the window
is lost if they live for twice the tolerance only.
-/

set_option autoImplicit false

namespace WebhookRelay

/-! ## Programs that approve once -/

def Call.Grants : (request : Call) → request.Answer → Prop
  | .tryMark .nonces _ _, answer => answer = .ok true
  | _, _ => False

namespace Program

variable {α : Type} {nonce : String} {ttl : Duration}

/-- The program succeeds only right after a nonce was marked as new, and marks no other. -/
def ApprovesBy (nonce : String) (ttl : Duration) :
    Program (Except VerificationError Verified) → Prop
  | .done verdict => ∀ verified, verdict ≠ .ok verified
  | .call request next =>
      (request.touches .nonces = true → request = .tryMark .nonces nonce ttl) ∧
        ∀ answer, (next answer).ApprovesBy nonce ttl ∨
          request.Grants answer ∧ ∃ verdict, next answer = .done verdict

theorem Uses.approvesBy {program : Program α}
    {after : α → Program (Except VerificationError Verified)}
    (uses : program.Uses fun request => request.touches .nonces = false)
    (rest : ∀ value, (after value).ApprovesBy nonce ttl) :
    (program.bind after).ApprovesBy nonce ttl := by
  induction program with
  | done value => exact rest value
  | call request next ih =>
      refine ⟨fun touches => ?_, fun answer => Or.inl (ih answer (uses.2 answer))⟩
      rw [uses.1] at touches
      cases touches

end Program

namespace Verifier

variable {verifier : Verifier}

theorem verify_approvesBy (checks : verifier.skip = false)
    (marks : verifier.nonces = some .atomic) {now : Int} {claim : SignatureClaim}
    {signature keyId : String} {header : SignatureHeader}
    (presents : verifier.Presents now claim signature keyId header) (body : Bytes) :
    (verifier.verify now claim body).outcome.ApprovesBy
      (signatureNonce signature keyId) verifier.nonceTtl := by
  rw [verify_outcome checks presents]
  refine (lookUpKey_unmarking keyId .nonces).approvesBy fun found => ?_
  cases found with
  | error error => exact nofun
  | ok key =>
      dsimp only
      split
      · rw [checkNonce_outcome, marks]
        dsimp only
        rw [markIfAbsent_outcome]
        refine ⟨fun _ => rfl, fun answer => ?_⟩
        match answer with
        | .error error => exact Or.inl nofun
        | .ok false => exact Or.inl nofun
        | .ok true => exact Or.inr ⟨rfl, _, rfl⟩
      · exact nofun

/-- How long a signature is recent: the seconds on either side of its time, and that
second itself. -/
def validity (verifier : Verifier) : Nat :=
  (2 * verifier.tolerance.seconds + 1) * nanosPerSecond

end Verifier

/-! ## Verifications side by side -/

/-- The unix time at an instant, in whole seconds, where the two clocks differ by a fixed
offset. -/
def unixSecond (offset : Int) (now : Instant) : Int :=
  (offset + now) / nanosPerSecond

structure Inspection where
  claim : SignatureClaim
  begun : Instant
  /-- The instant of its last call. -/
  reached : Instant
  rest : Program (Except VerificationError Verified)

/-- The world and all verifications that were begun. -/
structure Gate where
  world : World
  inspections : List Inspection := []

namespace Gate

inductive Move where
  | present (claim : SignatureClaim) (body : Bytes)
  | proceed (who : Nat)
  | change (circumstance : Circumstance)

def inspect (verifier : Verifier) (offset : Int) (gate : Gate) (claim : SignatureClaim)
    (body : Bytes) : Inspection where
  claim
  begun := gate.world.clock
  reached := gate.world.clock
  rest := (verifier.verify (unixSecond offset gate.world.clock) claim body).outcome

def move (verifier : Verifier) (offset : Int) (gate : Gate) : Move → Option Gate
  | .present claim body => some {
      gate with inspections := gate.inspections ++ [gate.inspect verifier offset claim body] }
  | .proceed who =>
      match gate.inspections[who]? with
      | some ⟨claim, begun, _, .call request next⟩ =>
          (gate.world.perform request).map fun (answer, world) => {
            world
            inspections :=
              gate.inspections.set who ⟨claim, begun, gate.world.clock, next answer⟩ }
      | _ => none
  | .change circumstance => some { gate with world := gate.world.under circumstance }

def play (verifier : Verifier) (offset : Int) (gate : Gate) : List Move → Option Gate
  | [] => some gate
  | next :: rest => do
      let gate ← gate.move verifier offset next
      gate.play verifier offset rest

def honoured (gate : Gate) (who : Nat) : Option SignatureClaim :=
  match gate.inspections[who]? with
  | some ⟨claim, _, _, .done (.ok _)⟩ => some claim
  | _ => none

def opening (world : World) : Gate :=
  { world }

end Gate

/-! ## What a verification has done so far -/

def Inspection.Honours (inspection : Inspection) : Prop :=
  ∃ verified, inspection.rest = .done (.ok verified)

/-- A verification has been turned down, or it waits for its nonce to be marked, or it
ended when it had marked its nonce, which is still marked if its time is not over. -/
inductive Inspection.Stands (verifier : Verifier) (offset : Int) (world : World)
    (inspection : Inspection) : Prop where
  | rejected (error : VerificationError) (ended : inspection.rest = .done (.error error))
  | waiting (signature keyId : String) (header : SignatureHeader)
      (presents : verifier.Presents (unixSecond offset inspection.begun) inspection.claim
        signature keyId header)
      (approves : inspection.rest.ApprovesBy (signatureNonce signature keyId)
        verifier.nonceTtl)
  | marked (signature keyId : String) (header : SignatureHeader)
      (presents : verifier.Presents (unixSecond offset inspection.begun) inspection.claim
        signature keyId header)
      (verdict : Except VerificationError Verified) (ended : inspection.rest = .done verdict)
      (holds : world.Holds .nonces (signatureNonce signature keyId)
        (inspection.reached + verifier.nonceTtl.nanos))

namespace Inspection

variable {verifier : Verifier} {offset : Int} {world after : World} {inspection : Inspection}

theorem Stands.mono (stands : inspection.Stands verifier offset world)
    (kept : ∀ nonce deadline, world.Holds .nonces nonce deadline →
      after.Holds .nonces nonce deadline) : inspection.Stands verifier offset after := by
  cases stands with
  | rejected error ended => exact .rejected error ended
  | waiting signature keyId header presents approves =>
      exact .waiting signature keyId header presents approves
  | marked signature keyId header presents verdict ended holds =>
      exact .marked signature keyId header presents verdict ended (kept _ _ holds)

theorem Stands.honours (stands : inspection.Stands verifier offset world)
    (honours : inspection.Honours) :
    ∃ signature keyId header,
      verifier.Presents (unixSecond offset inspection.begun) inspection.claim signature keyId
        header ∧
      world.Holds .nonces (signatureNonce signature keyId)
        (inspection.reached + verifier.nonceTtl.nanos) := by
  obtain ⟨verified, approved⟩ := honours
  cases stands with
  | rejected error ended =>
      rw [approved] at ended
      cases ended
  | waiting signature keyId header presents approves =>
      rw [approved] at approves
      exact absurd rfl (approves verified)
  | marked signature keyId header presents verdict ended holds =>
      exact ⟨signature, keyId, header, presents, holds⟩

/-- What one call of a verification does: it keeps all marks that last, and if the
verification ends well with it, then its nonce was marked as new. -/
structure Steps (verifier : Verifier) (offset : Int) (before after : World)
    (stepped : Inspection) : Prop where
  kept : ∀ nonce deadline, before.Holds .nonces nonce deadline →
    after.Holds .nonces nonce deadline
  stands : stepped.Stands verifier offset after
  fresh : stepped.Honours → ∀ signature keyId,
    stepped.claim.signature = some signature → stepped.claim.keyId = some keyId →
    ∀ deadline, before.Holds .nonces (signatureNonce signature keyId) deadline →
      deadline ≤ before.clock

theorem Stands.step {claim : SignatureClaim} {begun reached : Instant} {request : Call}
    {next : request.Answer → Program (Except VerificationError Verified)}
    (stands : Stands verifier offset world ⟨claim, begun, reached, .call request next⟩)
    {answer : request.Answer} (performed : world.perform request = some (answer, after)) :
    Steps verifier offset world after ⟨claim, begun, world.clock, next answer⟩ := by
  obtain ⟨_, ended⟩ | ⟨signature, keyId, header, presents, own, goesOn⟩ | ⟨_, _, _, _, _, ended, _⟩ :=
    stands
  · cases ended
  · have kept : ∀ nonce deadline, world.Holds .nonces nonce deadline →
        after.Holds .nonces nonce deadline := by
      intro nonce deadline holds
      cases touches : request.touches .nonces with
      | false => exact holds.of_unmarked (World.perform_unmarked touches performed)
      | true =>
          obtain rfl := own touches
          exact holds.tryMark performed
    rcases goesOn answer with approves | ⟨grants, verdict, ended⟩
    · refine ⟨kept, .waiting signature keyId header presents approves, ?_⟩
      rintro ⟨verified, approved⟩
      rw [show next answer = .done (.ok verified) from approved] at approves
      exact absurd rfl (approves verified)
    · have touches : request.touches .nonces = true := by
        unfold Call.Grants at grants
        split at grants
        · rfl
        · exact grants.elim
      obtain rfl := own touches
      obtain rfl : answer = .ok true := grants
      refine ⟨kept, ?_, ?_⟩
      · exact .marked signature keyId header presents verdict ended
          (World.holds_of_fresh performed)
      · intro _ ownSignature ownKeyId signed keyed deadline holds
        obtain rfl : signature = ownSignature :=
          Option.some.inj (presents.signed.symm.trans signed)
        obtain rfl : keyId = ownKeyId := Option.some.inj (presents.keyed.symm.trans keyed)
        exact holds.over_of_fresh performed
  · cases ended

end Inspection

/-! ## All verifications -/

/-- Two verifications that honour one claim end further apart than a nonce lives. -/
def Inspection.Apart (verifier : Verifier) (one other : Inspection) : Prop :=
  one.Honours → other.Honours → one.claim = other.claim →
    one.reached + verifier.nonceTtl.nanos ≤ other.reached ∨
      other.reached + verifier.nonceTtl.nanos ≤ one.reached

theorem Inspection.Apart.symm {verifier : Verifier} {one other : Inspection}
    (apart : one.Apart verifier other) : other.Apart verifier one := by
  intro honours otherHonours same
  exact (apart otherHonours honours same.symm).symm

namespace Gate

variable {verifier : Verifier} {offset : Int} {gate after : Gate}

structure Guarded (verifier : Verifier) (offset : Int) (gate : Gate) : Prop where
  stands : ∀ {who : Nat} {inspection : Inspection},
    gate.inspections[who]? = some inspection → inspection.Stands verifier offset gate.world
  ordered : ∀ {who : Nat} {inspection : Inspection},
    gate.inspections[who]? = some inspection →
      inspection.begun ≤ inspection.reached ∧ inspection.reached ≤ gate.world.clock
  apart : ∀ {first second : Nat} {one other : Inspection},
    gate.inspections[first]? = some one → gate.inspections[second]? = some other →
      first ≠ second → one.Apart verifier other

theorem guarded_opening (world : World) : Guarded verifier offset (opening world) :=
  ⟨fun found => by simp [opening] at found, fun found => by simp [opening] at found,
    fun found => by simp [opening] at found⟩

theorem honoured_eq_some {who : Nat} {claim : SignatureClaim}
    (honoured : gate.honoured who = some claim) :
    ∃ inspection, gate.inspections[who]? = some inspection ∧ inspection.Honours ∧
      inspection.claim = claim := by
  unfold Gate.honoured at honoured
  split at honoured
  · rename_i begun reached verified found
    cases honoured
    exact ⟨_, found, ⟨verified, rfl⟩, rfl⟩
  · cases honoured

theorem inspect_stands (checks : verifier.skip = false)
    (marks : verifier.nonces = some .atomic) (gate : Gate) (claim : SignatureClaim)
    (body : Bytes) :
    (gate.inspect verifier offset claim body).Stands verifier offset gate.world ∧
      ¬(gate.inspect verifier offset claim body).Honours := by
  by_cases presented : ∃ signature keyId header, verifier.Presents
      (unixSecond offset gate.world.clock) claim signature keyId header
  · obtain ⟨signature, keyId, header, presents⟩ := presented
    have approves := Verifier.verify_approvesBy checks marks presents body
    refine ⟨.waiting signature keyId header presents approves, ?_⟩
    rintro ⟨verified, approved⟩
    rw [show (verifier.verify _ claim body).outcome = .done (.ok verified) from approved]
      at approves
    exact absurd rfl (approves verified)
  · obtain ⟨error, _, ended⟩ := Verifier.verify_outcome_unpresented checks
      (fun signature keyId header presents =>
        presented ⟨signature, keyId, header, presents⟩) body
    refine ⟨.rejected error ended, ?_⟩
    rintro ⟨verified, approved⟩
    rw [show (verifier.verify _ claim body).outcome = .done (.ok verified) from approved]
      at ended
    cases ended

theorem Guarded.present (guarded : gate.Guarded verifier offset)
    (checks : verifier.skip = false) (marks : verifier.nonces = some .atomic)
    (claim : SignatureClaim) (body : Bytes) :
    Guarded verifier offset {
      gate with inspections := gate.inspections ++ [gate.inspect verifier offset claim body] } := by
  have started : (gate.inspect verifier offset claim body).Stands verifier offset gate.world ∧
      ¬(gate.inspect verifier offset claim body).Honours :=
    inspect_stands checks marks gate claim body
  obtain ⟨stands, notYet⟩ := started
  refine ⟨fun running => ?_, fun running => ?_, fun one other distinct => ?_⟩
  · obtain old | ⟨_, rfl⟩ := getElem?_added running
    · exact guarded.stands old
    · exact stands
  · obtain old | ⟨_, rfl⟩ := getElem?_added running
    · exact guarded.ordered old
    · exact ⟨Nat.le_refl _, Nat.le_refl _⟩
  · obtain old | ⟨_, rfl⟩ := getElem?_added one
    · obtain otherOld | ⟨_, rfl⟩ := getElem?_added other
      · exact guarded.apart old otherOld distinct
      · exact fun _ honours => absurd honours notYet
    · exact fun honours => absurd honours notYet

theorem Guarded.change (guarded : gate.Guarded verifier offset) (circumstance : Circumstance) :
    Guarded verifier offset { gate with world := gate.world.under circumstance } := by
  refine ⟨fun running => ?_, fun running => ?_, fun one other => guarded.apart one other⟩
  · exact (guarded.stands running).mono fun _ _ holds => holds.under circumstance
  · obtain ⟨ordered, past⟩ := guarded.ordered running
    exact ⟨ordered, Nat.le_trans past (gate.world.clock_le_under circumstance)⟩

theorem Guarded.proceed (guarded : gate.Guarded verifier offset) {who : Nat}
    {claim : SignatureClaim} {begun reached : Instant} {request : Call}
    {next : request.Answer → Program (Except VerificationError Verified)}
    {answer : request.Answer} {world : World}
    (running : gate.inspections[who]? = some ⟨claim, begun, reached, .call request next⟩)
    (performed : gate.world.perform request = some (answer, world)) :
    Guarded verifier offset {
      world
      inspections := gate.inspections.set who ⟨claim, begun, gate.world.clock, next answer⟩ } := by
  have clock : world.clock = gate.world.clock := World.perform_clock performed
  obtain ⟨kept, stands, fresh⟩ := (guarded.stands running).step performed
  obtain ⟨sofar, past⟩ := guarded.ordered running
  -- The verification that has moved ends now if it ends; whatever was honoured before had
  -- its nonce marked, and a nonce that is new now is marked no more.
  have apart {other : Nat} {inspection : Inspection}
      (running : gate.inspections[other]? = some inspection) :
      inspection.Apart verifier ⟨claim, begun, gate.world.clock, next answer⟩ := by
    intro honours newHonours same
    obtain ⟨signature, keyId, header, presents, holds⟩ :=
      (guarded.stands running).honours honours
    refine Or.inl (fresh newHonours signature keyId ?_ ?_ _ holds)
    · rw [← same]
      exact presents.signed
    · rw [← same]
      exact presents.keyed
  refine ⟨fun running => ?_, fun running => ?_, fun one other distinct => ?_⟩
  · obtain ⟨_, old⟩ | ⟨_, rfl⟩ := getElem?_replaced running
    · exact (guarded.stands old).mono kept
    · exact stands
  · rw [clock]
    obtain ⟨_, old⟩ | ⟨_, rfl⟩ := getElem?_replaced running
    · exact guarded.ordered old
    · exact ⟨Nat.le_trans sofar past, Nat.le_refl _⟩
  · obtain ⟨_, old⟩ | ⟨own, rfl⟩ := getElem?_replaced one
    · obtain ⟨_, otherOld⟩ | ⟨_, rfl⟩ := getElem?_replaced other
      · exact guarded.apart old otherOld distinct
      · exact apart old
    · obtain ⟨_, otherOld⟩ | ⟨otherOwn, _⟩ := getElem?_replaced other
      · exact (apart otherOld).symm
      · exact absurd (own.trans otherOwn.symm) distinct

theorem Guarded.move (guarded : gate.Guarded verifier offset) (checks : verifier.skip = false)
    (marks : verifier.nonces = some .atomic) {next : Move}
    (moved : gate.move verifier offset next = some after) : after.Guarded verifier offset := by
  cases next with
  | present claim body =>
      cases moved
      exact guarded.present checks marks claim body
  | change circumstance =>
      cases moved
      exact guarded.change circumstance
  | proceed who =>
      simp only [Gate.move] at moved
      split at moved
      · rename_i running
        obtain ⟨⟨answer, world⟩, performed, rfl⟩ := Option.map_eq_some_iff.mp moved
        exact guarded.proceed running performed
      · cases moved

theorem Guarded.play {moves : List Move} (guarded : gate.Guarded verifier offset)
    (checks : verifier.skip = false) (marks : verifier.nonces = some .atomic)
    (played : gate.play verifier offset moves = some after) :
    after.Guarded verifier offset := by
  induction moves generalizing gate with
  | nil =>
      cases played
      exact guarded
  | cons next rest ih =>
      simp only [Gate.play, bind, Option.bind_eq_some_iff] at played
      obtain ⟨middle, moved, played⟩ := played
      exact ih (guarded.move checks marks moved) played

end Gate

/-! ## The window and the nonce -/

/-- Two whole seconds that lie in the window of one signature belong to instants that are
closer to each other than the window is wide. -/
theorem Verifier.Presents.within {verifier : Verifier} {offset : Int} {early late : Nat}
    {claim : SignatureClaim} {signature keyId : String} {header other : SignatureHeader}
    {otherSignature otherKeyId : String}
    (first : verifier.Presents (unixSecond offset early) claim signature keyId header)
    (second : verifier.Presents (unixSecond offset late) claim otherSignature otherKeyId other) :
    late < early + verifier.validity := by
  obtain rfl : signature = otherSignature :=
    Option.some.inj (first.signed.symm.trans second.signed)
  obtain rfl : header = other := Except.ok.inj (first.parsed.symm.trans second.parsed)
  have recent := first.recent
  have stillRecent := second.recent
  unfold Verifier.age unixSecond nanosPerSecond at recent stillRecent
  unfold Verifier.validity nanosPerSecond
  omega

/-- A verification that ends in time, of a signature that was recent for another one, has
ended before the nonce of the other one expires. -/
theorem Inspection.too_close {verifier : Verifier} {one other : Inspection} {delay : Nat}
    (outlives : verifier.validity + delay ≤ verifier.nonceTtl.nanos)
    (within : other.begun < one.begun + verifier.validity)
    (swift : other.reached ≤ other.begun + delay) (ordered : one.begun ≤ one.reached) :
    other.reached < one.reached + verifier.nonceTtl.nanos :=
  calc other.reached
    _ ≤ other.begun + delay := swift
    _ < one.begun + verifier.validity + delay := Nat.add_lt_add_right within delay
    _ = one.begun + (verifier.validity + delay) := Nat.add_assoc ..
    _ ≤ one.reached + verifier.nonceTtl.nanos := Nat.add_le_add ordered outlives

/-- Where nonces are marked in one step and outlive the window of a signature by the time
that a verification takes, a signature header and key id are honoured once at most, in
every run of verifications side by side. -/
theorem signature_is_honoured_once (verifier : Verifier) (checks : verifier.skip = false)
    (marks : verifier.nonces = some .atomic) {delay : Nat}
    (outlives : verifier.validity + delay ≤ verifier.nonceTtl.nanos) (offset : Int)
    {world : World} {moves : List Gate.Move} {gate : Gate}
    (played : (Gate.opening world).play verifier offset moves = some gate)
    (swift : ∀ inspection ∈ gate.inspections,
      inspection.reached ≤ inspection.begun + delay)
    {first second : Nat} {claim : SignatureClaim}
    (honoured : gate.honoured first = some claim)
    (again : gate.honoured second = some claim) : first = second := by
  have guarded : gate.Guarded verifier offset :=
    (Gate.guarded_opening world).play checks marks played
  obtain ⟨one, found, honours, rfl⟩ := Gate.honoured_eq_some honoured
  obtain ⟨other, otherFound, otherHonours, same⟩ := Gate.honoured_eq_some again
  obtain ⟨_, _, _, presents, _⟩ := (guarded.stands found).honours honours
  obtain ⟨_, _, _, otherPresents, _⟩ := (guarded.stands otherFound).honours otherHonours
  rw [same] at otherPresents
  have forth := Inspection.too_close outlives (presents.within otherPresents)
    (swift other (List.mem_of_getElem? otherFound)) (guarded.ordered found).1
  have back := Inspection.too_close outlives (otherPresents.within presents)
    (swift one (List.mem_of_getElem? found)) (guarded.ordered otherFound).1
  by_cases equal : first = second
  · exact equal
  · rcases guarded.apart found otherFound equal honours otherHonours same.symm with early | late
    · exact absurd forth (Nat.not_lt.mpr early)
    · exact absurd back (Nat.not_lt.mpr late)

namespace Sample

def closedGate : Gate :=
  .opening { source := .held ⟨[publishedKey]⟩ false }

/-- A signed request is presented in the first and in the last second of the window of its
signature, five minutes before and after the time that it was signed at. -/
def firstAndLastSecond : List Gate.Move :=
  .present signedRequest.claim body :: List.replicate 3 (.proceed 0) ++
    .change (.advance (.ofSeconds 600)) :: .present signedRequest.claim body ::
      List.replicate 3 (.proceed 1)

def fiveMinutesEarly : Int := -300000000000

set_option maxRecDepth 100000 in
theorem signature_is_refused_in_the_last_second :
    ∃ gate, closedGate.play { nonces := some .atomic, nonceTtl := .ofSeconds 601 }
        fiveMinutesEarly firstAndLastSecond = some gate ∧
      gate.honoured 0 = some signedRequest.claim ∧
      ∀ second, gate.honoured second = some signedRequest.claim → second = 0 := by
  obtain ⟨gate, played, swift, honoured⟩ :
      ∃ gate ∈ closedGate.play { nonces := some .atomic, nonceTtl := .ofSeconds 601 }
          fiveMinutesEarly firstAndLastSecond,
        (∀ inspection ∈ gate.inspections, inspection.reached ≤ inspection.begun + 0) ∧
        gate.honoured 0 = some signedRequest.claim := by decide +kernel
  refine ⟨gate, played, honoured, fun second again => ?_⟩
  exact signature_is_honoured_once _ rfl rfl (by decide) _ played swift again honoured

set_option maxRecDepth 100000 in
/-- With the default times a nonce lives for twice the tolerance, and the same signature is
honoured twice. -/
theorem signature_is_honoured_twice :
    2 * ({} : Verifier).tolerance.nanos ≤ ({} : Verifier).nonceTtl.nanos ∧
      ∃ gate, closedGate.play { nonces := some .atomic } fiveMinutesEarly
          firstAndLastSecond = some gate ∧
        gate.honoured 0 = some signedRequest.claim ∧
        gate.honoured 1 = some signedRequest.claim := by
  have twice : ∃ gate ∈ closedGate.play { nonces := some .atomic } fiveMinutesEarly
      firstAndLastSecond, gate.honoured 0 = some signedRequest.claim ∧
        gate.honoured 1 = some signedRequest.claim := by decide +kernel
  exact ⟨by decide, twice⟩

end Sample

end WebhookRelay
