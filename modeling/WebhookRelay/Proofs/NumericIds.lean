import WebhookRelay.Proofs.IntegerMembers
import WebhookRelay.Proofs.LargeNumbers
import WebhookRelay.Proofs.Outcomes

/-!
# Event ids that are integers

An event id may be an integer.  One of 64 bits is kept exactly, and its id is its digits.  Any
other one is read as a binary number, and its id is the shortest text of that number, which
other integers have as well.  So two integers are one event id exactly if both are read as the
same binary number, and then one event is taken for the other.
-/

set_option autoImplicit false

namespace WebhookRelay

namespace Json

open Binary64 (powerBits)

/-! ## What an integer is read as -/

/-- The integer fits 64 bits, signed or unsigned. -/
def FitsWord (n : Int) : Prop :=
  Decimal.int64Min ≤ n ∧ n ≤ Decimal.uint64Max

instance (n : Int) : Decidable (FitsWord n) :=
  inferInstanceAs (Decidable (_ ∧ _))

def ReadAlike (m n : Int) : Prop :=
  ∃ x, parse? (Decimal.ofInt m) = some (.float x) ∧ parse? (Decimal.ofInt n) = some (.float x)

/-- Digits that do not all fit leave a significand that has no room for one more. -/
theorem absorb_overflow {significand : Nat} {digits : List Char}
    (all : ∀ c ∈ digits, Decimal.isDigit c = true)
    (beyond : Decimal.uint64Max <
      digits.foldl (fun total c => total * 10 + Decimal.digitValue c) significand)
    (fits : significand ≤ Decimal.uint64Max) :
    ∃ kept c rest, absorb significand digits = (kept, c :: rest) ∧
      Decimal.uint64Max < kept * 10 + 10 := by
  induction digits generalizing significand with
  | nil => exact absurd beyond (Nat.not_lt.mpr fits)
  | cons c digits ih =>
      rw [absorb]
      split
      · rename_i next
        exact ih (fun c member => all c (List.mem_cons_of_mem _ member)) beyond next
      · rename_i next
        have digit := all c List.mem_cons_self
        simp only [Decimal.isDigit, Bool.and_eq_true, decide_eq_true_eq] at digit
        refine ⟨significand, c, digits, rfl, ?_⟩
        unfold Decimal.digitValue at next
        omega

/-- A power of ten makes a large number larger, as long as the result is finite. -/
theorem floatOf_large {negative : Bool} {significand count : Nat} {value : Json}
    (large : 2 ^ 60 ≤ significand) (read : floatOf negative significand count = some value) :
    ∃ x, value = .float x ∧ powerBits 60 ≤ x.magnitude := by
  have start : powerBits 60 ≤ Binary64.magnitudeOfRatio significand 1 :=
    Binary64.powerBits_le_magnitudeOfRatio Nat.one_pos (by decide) (by rwa [Nat.mul_one])
  have nonzero : ¬Binary64.magnitudeOfRatio significand 1 = 0 := by
    unfold powerBits at start
    omega
  obtain ⟨magnitude, scaled, rfl⟩ := Option.map_eq_some_iff.mp read
  have nonneg : (0 : Int) ≤ count := Int.natCast_nonneg count
  -- The product stays above 2 ^ 60, since a power of ten is rounded to 1 or more.
  unfold scaleByTen at scaled
  rw [if_pos nonneg] at scaled
  split at scaled
  · dsimp only at scaled
    split at scaled
    · rename_i finite
      cases scaled
      have power : powerBits 0 ≤ powerOfTen count :=
        Binary64.powerBits_le_magnitudeOfRatio Nat.one_pos (by decide)
          (by rw [Nat.mul_one]; exact Nat.pow_pos (by decide))
      have product := Binary64.powerBits_le_mulMagnitude start power
      refine ⟨_, rfl, ?_⟩
      rw [Binary64.magnitude_ofMagnitude _ (Nat.lt_trans finite (by decide))]
      exact product
    · cases scaled
  · cases scaled

theorem ofDecimal_large {n : Nat} (negative : Bool) (large : 2 ^ 60 ≤ n) :
    powerBits 60 ≤ (Binary64.ofDecimal negative n 0).magnitude := by
  have small : ¬(n = 0 ∨ (0 : Int) < -400 - n.log2) := by omega
  have rounded : powerBits 60 ≤ Binary64.magnitudeOfRatio n 1 :=
    Binary64.powerBits_le_magnitudeOfRatio Nat.one_pos (by decide) (by rwa [Nat.mul_one])
  unfold Binary64.ofDecimal
  dsimp only
  rw [if_neg small, if_neg (by decide), if_pos (Int.le_refl 0), Int.toNat_zero, Nat.pow_eq,
    Nat.pow_zero, Nat.mul_one, Binary64.magnitude_ofMagnitude _
      (Nat.lt_of_le_of_lt (Binary64.magnitudeOfRatio_le n 1) (by decide))]
  exact rounded

section Literal

variable {negative : Bool} {magnitude : Nat}

theorem foldl_digits_zero (magnitude : Nat) :
    (Decimal.digits magnitude).foldl (fun total c => total * 10 + Decimal.digitValue c) 0 =
      magnitude :=
  Decimal.ofDigits_digits magnitude

theorem value?_of_le (fits : magnitude ≤ Decimal.uint64Max) :
    (integerLiteral negative magnitude).value? = some (if negative then
      if magnitude = 0 ∨ magnitude > 0x8000000000000000 then
        .float (Binary64.ofDecimal true magnitude 0)
      else .int (-magnitude) else .int magnitude) := by
  have absorbed : absorb 0 (Decimal.digits magnitude) = (magnitude, []) := by
    rw [absorb_of_le (by rwa [foldl_digits_zero]), foldl_digits_zero]
  simp only [NumberLiteral.value?, integerLiteral, absorbed]
  cases negative with
  | false => rfl
  | true =>
      simp only [Bool.not_true, Bool.false_eq_true, if_false, if_true]
      split <;> rfl

theorem value?_of_lt (negative : Bool) (beyond : Decimal.uint64Max < magnitude) :
    ∃ significand count : Nat, 2 ^ 60 ≤ significand ∧
      (integerLiteral negative magnitude).value? = floatOf negative significand count := by
  have all : ∀ c ∈ Decimal.digits magnitude, Decimal.isDigit c = true :=
    fun c member => Decimal.isDigit_of_mem_digits member
  rw [← foldl_digits_zero magnitude] at beyond
  obtain ⟨kept, c, rest, absorbed, room⟩ := absorb_overflow all beyond (Nat.zero_le _)
  refine ⟨kept, (c :: rest).length, ?_, ?_⟩
  · unfold Decimal.uint64Max at room
    omega
  · simp only [NumberLiteral.value?, integerLiteral, absorbed]
    rfl

/-- What the literal of an integer is read as: itself where it fits 64 bits, except that minus
zero is a binary number, and a large binary number otherwise. -/
theorem value?_integerLiteral {value : Json}
    (read : (integerLiteral negative magnitude).value? = some value) :
    (value = .int (signed negative magnitude) ∧ FitsWord (signed negative magnitude)) ∨
      (value = .float (Binary64.ofDecimal true 0 0) ∧ signed negative magnitude = 0) ∨
      ∃ x, value = .float x ∧ powerBits 60 ≤ x.magnitude ∧
        ¬FitsWord (signed negative magnitude) := by
  unfold FitsWord signed Decimal.int64Min
  by_cases fits : magnitude ≤ Decimal.uint64Max
  · rw [value?_of_le fits] at read
    unfold Decimal.uint64Max at *
    cases negative with
    | false =>
        cases read
        refine Or.inl ⟨rfl, ?_⟩
        simp
        omega
    | true =>
        rw [if_pos rfl] at read
        by_cases zero : magnitude = 0
        · subst zero
          cases read
          exact Or.inr (Or.inl ⟨rfl, rfl⟩)
        · by_cases long : magnitude > 0x8000000000000000
          · rw [if_pos (Or.inr long)] at read
            cases read
            refine Or.inr (Or.inr ⟨_, rfl, ofDecimal_large true (by omega), ?_⟩)
            simp
            omega
          · rw [if_neg (by omega)] at read
            cases read
            refine Or.inl ⟨rfl, ?_⟩
            simp
            omega
  · obtain ⟨significand, count, large, isFloat⟩ := value?_of_lt negative
      (Nat.lt_of_not_le fits)
    rw [isFloat] at read
    obtain ⟨x, rfl, isLarge⟩ := floatOf_large large read
    refine Or.inr (Or.inr ⟨x, rfl, isLarge, ?_⟩)
    unfold Decimal.uint64Max at *
    cases negative <;> simp <;> omega

end Literal

/-! ## The texts -/

theorem ofInt_injective {m n : Int} (same : Decimal.ofInt m = Decimal.ofInt n) : m = n := by
  have digits : Decimal.signedDigits m = Decimal.signedDigits n := String.ofList_injective same
  have one := Decimal.int?_eq_some_iff.mpr (Decimal.names_signedDigits m)
  rw [digits, Decimal.int?_eq_some_iff.mpr (Decimal.names_signedDigits n)] at one
  exact (Option.some.inj one).symm

/-- A text with a point or an exponent is no integer's. -/
theorem ofInt_ne_chars {n : Int} {x : Binary64} {c : Char} (member : c ∈ Shortest.chars x)
    (mark : c ≠ '-' ∧ Decimal.isDigit c = false) :
    Decimal.ofInt n ≠ String.ofList (Shortest.chars x) := by
  intro same
  have digits : Decimal.signedDigits n = Shortest.chars x := String.ofList_injective same
  rcases Decimal.mem_signedDigits (digits ▸ member) with sign | digit
  · exact mark.1 sign
  · rw [mark.2] at digit
    cases digit

theorem chars_minusZero : Shortest.chars (Binary64.ofDecimal true 0 0) = ['-', '0', '.', '0'] := by
  decide +kernel

/-- What the literal of an integer is read as is the integer, or has a text with a character
that no integer is written with. -/
theorem int_or_marked {negative : Bool} {magnitude : Nat} {value : Json}
    (read : (integerLiteral negative magnitude).value? = some value) :
    value = .int (signed negative magnitude) ∨
      ∃ x, value = .float x ∧ ∃ c ∈ Shortest.chars x, c ≠ '-' ∧ Decimal.isDigit c = false := by
  rcases value?_integerLiteral read with ⟨isInt, _⟩ | ⟨isFloat, _⟩ | ⟨x, isFloat, large, _⟩
  · exact Or.inl isInt
  · refine Or.inr ⟨_, isFloat, '.', ?_, by decide⟩
    rw [chars_minusZero]
    decide
  · exact Or.inr ⟨x, isFloat, 'e', Shortest.mem_chars_of_large large, by decide⟩

/-- Among the binary numbers that integers are read as, only minus zero is written without an
exponent, so no two of them have the same text. -/
theorem chars_injective_of_read {negative negative' : Bool} {magnitude magnitude' : Nat}
    {x y : Binary64} (read : (integerLiteral negative magnitude).value? = some (.float x))
    (alsoRead : (integerLiteral negative' magnitude').value? = some (.float y))
    (same : Shortest.chars x = Shortest.chars y) : x = y := by
  have noExponent : 'e' ∉ Shortest.chars (Binary64.ofDecimal true 0 0) := by
    rw [chars_minusZero]
    decide
  rcases value?_integerLiteral read with ⟨impossible, _⟩ | ⟨isZero, _⟩ | ⟨_, isFloat, large, _⟩
  · cases impossible
  · rcases value?_integerLiteral alsoRead with ⟨impossible, _⟩ | ⟨alsoZero, _⟩ |
      ⟨_, alsoFloat, large, _⟩
    · cases impossible
    · rw [Json.float.inj isZero, Json.float.inj alsoZero]
    · cases isZero
      cases alsoFloat
      exact absurd (same ▸ Shortest.mem_chars_of_large large) noExponent
  · cases isFloat
    rcases value?_integerLiteral alsoRead with ⟨impossible, _⟩ | ⟨alsoZero, _⟩ |
      ⟨_, alsoFloat, alsoLarge, _⟩
    · cases impossible
    · cases alsoZero
      exact absurd (same ▸ Shortest.mem_chars_of_large large) noExponent
    · cases alsoFloat
      exact Shortest.chars_injective_of_large large alsoLarge same

/-- The literals of different integers are read as values with the same text exactly if both
are read as the same binary number. -/
theorem scalar?_eq_iff {negative negative' : Bool} {magnitude magnitude' : Nat} {one other : Json}
    (read : (integerLiteral negative magnitude).value? = some one)
    (alsoRead : (integerLiteral negative' magnitude').value? = some other)
    (distinct : signed negative magnitude ≠ signed negative' magnitude') :
    EventFields.scalar? one = EventFields.scalar? other ↔
      ∃ x, one = .float x ∧ other = .float x := by
  refine ⟨fun same => ?_, fun ⟨x, isFloat, alsoFloat⟩ => by rw [isFloat, alsoFloat]⟩
  rcases int_or_marked read with rfl | ⟨x, rfl, c, member, mark⟩ <;>
    rcases int_or_marked alsoRead with rfl | ⟨y, rfl, c', member', mark'⟩
  · exact absurd (ofInt_injective (Option.some.inj same)) distinct
  · exact absurd (Option.some.inj same) (ofInt_ne_chars member' mark')
  · exact absurd (Option.some.inj same).symm (ofInt_ne_chars member mark)
  · have texts := String.ofList_injective (Option.some.inj same)
    obtain rfl := chars_injective_of_read read alsoRead texts
    exact ⟨x, rfl, rfl⟩

theorem integerLiteral_cases (negative : Bool) (magnitude : Nat) :
    integerLiteral negative magnitude = integerLiteral (signed negative magnitude < 0)
        (signed negative magnitude).natAbs ∨
      (negative = true ∧ magnitude = 0) := by
  cases negative with
  | false =>
      refine Or.inl ?_
      have nonneg : ¬(magnitude : Int) < 0 := by omega
      simp [signed, nonneg]
  | true =>
      by_cases zero : magnitude = 0
      · exact Or.inr ⟨rfl, zero⟩
      · refine Or.inl ?_
        simp [signed, Nat.pos_of_ne_zero zero]

/-- Zero is the only integer that is read as minus zero, and that is the only binary number
that it is read as. -/
theorem signed_eq_zero_iff {negative : Bool} {magnitude : Nat} {x : Binary64}
    (read : (integerLiteral negative magnitude).value? = some (.float x)) :
    signed negative magnitude = 0 ↔ x = Binary64.ofDecimal true 0 0 := by
  rcases value?_integerLiteral read with ⟨impossible, _⟩ | ⟨same, zero⟩ | ⟨y, same, large, beyond⟩
  · cases impossible
  · exact iff_of_true zero (Json.float.inj same)
  · cases same
    refine iff_of_false (fun zero => ?_) (fun isZero => ?_)
    · rw [zero] at beyond
      exact beyond (by decide)
    · rw [isZero] at large
      exact absurd large (by decide +kernel)

theorem parse?_eq_float_iff {negative : Bool} {magnitude : Nat} {value : Json} {x : Binary64}
    (read : (integerLiteral negative magnitude).value? = some value)
    (nonzero : signed negative magnitude ≠ 0) :
    parse? (Decimal.ofInt (signed negative magnitude)) = some (.float x) ↔ value = .float x := by
  rcases integerLiteral_cases negative magnitude with same | ⟨rfl, rfl⟩
  · rw [parse?_ofInt, ← same, read, Option.some.injEq]
  · exact absurd rfl nonzero

theorem parse?_zero (x : Binary64) : parse? (Decimal.ofInt 0) ≠ some (.float x) := by
  rw [parse?_ofInt, show (0 : Int).natAbs = 0 from rfl, value?_of_le (by decide)]
  nofun

theorem readAlike_iff {negative negative' : Bool} {magnitude magnitude' : Nat} {one other : Json}
    (read : (integerLiteral negative magnitude).value? = some one)
    (alsoRead : (integerLiteral negative' magnitude').value? = some other)
    (distinct : signed negative magnitude ≠ signed negative' magnitude') :
    ReadAlike (signed negative magnitude) (signed negative' magnitude') ↔
      ∃ x, one = .float x ∧ other = .float x := by
  constructor
  · rintro ⟨x, alone, alsoAlone⟩
    have nonzero : signed negative magnitude ≠ 0 := fun zero => parse?_zero x (zero ▸ alone)
    have alsoNonzero : signed negative' magnitude' ≠ 0 :=
      fun zero => parse?_zero x (zero ▸ alsoAlone)
    exact ⟨x, (parse?_eq_float_iff read nonzero).mp alone,
      (parse?_eq_float_iff alsoRead alsoNonzero).mp alsoAlone⟩
  · rintro ⟨x, rfl, rfl⟩
    have unlikeZero : x ≠ Binary64.ofDecimal true 0 0 := fun zero =>
      distinct (((signed_eq_zero_iff read).mpr zero).trans
        ((signed_eq_zero_iff alsoRead).mpr zero).symm)
    have nonzero := fun zero => unlikeZero ((signed_eq_zero_iff read).mp zero)
    have alsoNonzero := fun zero => unlikeZero ((signed_eq_zero_iff alsoRead).mp zero)
    exact ⟨x, (parse?_eq_float_iff read nonzero).mpr rfl,
      (parse?_eq_float_iff alsoRead alsoNonzero).mpr rfl⟩

theorem signed_natAbs (n : Int) : signed (n < 0) n.natAbs = n := by
  simp only [signed, decide_eq_true_eq]
  split <;> omega

theorem not_fitsWord_of_float {n : Int} {x : Binary64}
    (alone : parse? (Decimal.ofInt n) = some (.float x)) : ¬FitsWord n := by
  have read := alone
  rw [parse?_ofInt] at read
  rcases value?_integerLiteral read with ⟨impossible, _⟩ | ⟨_, zero⟩ | ⟨_, _, _, beyond⟩
  · cases impossible
  · rw [signed_natAbs] at zero
    exact absurd (zero ▸ alone) (parse?_zero x)
  · rwa [signed_natAbs] at beyond

end Json

/-! ## Event ids -/

def WritesEventId (body : Bytes) (n : Int) : Prop :=
  ∃ text, Text.ofUtf8? body = some text ∧ Json.HoldsInteger "event_id" text n

variable {one other : Bytes} {m n : Int}

/-- The event id of a body that holds an integer is the text of what its literal is read as. -/
theorem eventId_of_writes {body : Bytes} (readable : (Json.parseBytes? body).isSome = true)
    (writes : WritesEventId body n) :
    ∃ negative magnitude held, n = Json.signed negative magnitude ∧
      (Json.integerLiteral negative magnitude).value? = some held ∧
      EventFields.eventIdOfBytes? body = EventFields.scalar? held := by
  obtain ⟨value, isValue⟩ := Option.isSome_iff_exists.mp readable
  obtain ⟨text, isText, holds⟩ := writes
  have read : Json.parse? text = some value := by
    rw [Json.parseBytes?, isText] at isValue
    exact isValue
  obtain ⟨negative, magnitude, isInteger, held, isHeld, isMember⟩ :=
    Json.member?_of_holdsInteger read holds
  refine ⟨negative, magnitude, held, isInteger, isHeld, ?_⟩
  rw [EventFields.eventIdOfBytes?, isValue, Option.bind_some, EventFields.eventId?, isMember,
    Option.bind_some]

theorem Receiver.Request.Names.eventIdOfBytes? {request : Receiver.Request} {eventId : String}
    (names : request.Names eventId) :
    EventFields.eventIdOfBytes? request.body = some eventId := by
  obtain ⟨text, value, fields, isText, isJson, hasFields, rfl⟩ := names
  obtain ⟨id, isId, hasFields⟩ := Option.bind_eq_some_iff.mp hasFields
  obtain ⟨order, _, hasFields⟩ := Option.bind_eq_some_iff.mp hasFields
  obtain ⟨orderId, _, hasFields⟩ := Option.bind_eq_some_iff.mp hasFields
  cases hasFields
  rw [EventFields.eventIdOfBytes?, Json.parseBytes?, isText, Option.bind_some, isJson,
    Option.bind_some, isId]

theorem eventIdOfBytes?_eq_iff (readable : (Json.parseBytes? one).isSome = true)
    (alsoReadable : (Json.parseBytes? other).isSome = true) (writes : WritesEventId one m)
    (alsoWrites : WritesEventId other n) (distinct : m ≠ n) :
    EventFields.eventIdOfBytes? one = EventFields.eventIdOfBytes? other ↔
      Json.ReadAlike m n := by
  obtain ⟨negative, magnitude, held, rfl, read, isId⟩ := eventId_of_writes readable writes
  obtain ⟨negative', magnitude', held', rfl, alsoRead, alsoId⟩ :=
    eventId_of_writes alsoReadable alsoWrites
  rw [isId, alsoId, Json.scalar?_eq_iff read alsoRead distinct,
    Json.readAlike_iff read alsoRead distinct]

theorem eventIdOfBytes?_isSome (readable : (Json.parseBytes? one).isSome = true)
    (writes : WritesEventId one m) : (EventFields.eventIdOfBytes? one).isSome = true := by
  obtain ⟨negative, magnitude, held, rfl, read, isId⟩ := eventId_of_writes readable writes
  rw [isId]
  rcases Json.value?_integerLiteral read with ⟨rfl, _⟩ | ⟨rfl, _⟩ | ⟨x, rfl, _⟩ <;> rfl

/-- A run of requests one after the other, from empty stores that do not fail, with any changes
of time, keys and network between them; digests of bodies do not collide, and ids do not come
twice. -/
structure Chronicle.OfRequests (pipeline : Pipeline) (episodes : List Episode) (world : World)
    (chronicle : Chronicle) : Prop where
  blank : world.Blank
  unmarked : world.fingerprints.entries = []
  reliable : world.Reliable
  requests : ∀ episode ∈ episodes, episode.Requests
  varied : world.ids.Varied episodes.length
  apart : ∀ one other : Receiver.Request, Episode.run (.receive one) ∈ episodes →
    Episode.run (.receive other) ∈ episodes →
    bodyFingerprint one.body = bodyFingerprint other.body → one.body = other.body
  written : (Chronicle.opening world).write pipeline episodes = some chronicle

/-- Two bodies in JSON hold different integers as their event ids.  Both have an event id, which
is the one that a request with the body is about.  If one of the integers fits 64 bits, signed
or unsigned, then these are different; otherwise they are the same exactly if both integers are
read as the same binary number.  In a run of requests, after one with the first body was
accepted, one with the second body that is about an event and has an authentic signature is
acknowledged as its duplicate in that case and in no other. -/
theorem integer_event_ids_agree_iff_read_alike (readable : (Json.parseBytes? one).isSome = true)
    (alsoReadable : (Json.parseBytes? other).isSome = true) (writes : WritesEventId one m)
    (alsoWrites : WritesEventId other n) (distinct : m ≠ n) :
    ∃ id id', EventFields.eventIdOfBytes? one = some id ∧
      EventFields.eventIdOfBytes? other = some id' ∧
      (∀ request : Receiver.Request, ∀ eventId, request.Names eventId →
        (request.body = one → eventId = id) ∧ (request.body = other → eventId = id')) ∧
      (Json.FitsWord m ∨ Json.FitsWord n → id ≠ id') ∧
      (id = id' ↔ Json.ReadAlike m n) ∧
      ∀ pipeline episodes world chronicle, Chronicle.OfRequests pipeline episodes world chronicle →
        ∀ earlier chapter later former, chronicle.chapters = earlier ++ chapter :: later →
          former ∈ earlier → former.Accepts id → ∀ request, chapter.task = .receive request →
            request.body = other → request.Names id' →
            pipeline.receiver.Authenticates request chapter.before →
            (chapter.Acknowledges id ↔ Json.ReadAlike m n) := by
  have agree := eventIdOfBytes?_eq_iff readable alsoReadable writes alsoWrites distinct
  obtain ⟨id, isId⟩ := Option.isSome_iff_exists.mp (eventIdOfBytes?_isSome readable writes)
  obtain ⟨id', alsoId⟩ := Option.isSome_iff_exists.mp
    (eventIdOfBytes?_isSome alsoReadable alsoWrites)
  rw [isId, alsoId, Option.some_inj] at agree
  refine ⟨id, id', isId, alsoId, ?_, ?_, agree, ?_⟩
  · intro request eventId names
    have own := names.eventIdOfBytes?
    refine ⟨fun same => ?_, fun same => ?_⟩
    · rw [same, isId] at own
      exact (Option.some.inj own).symm
    · rw [same, alsoId] at own
      exact (Option.some.inj own).symm
  · rintro fits same
    obtain ⟨x, alone, alsoAlone⟩ := agree.mp same
    exact fits.elim (Json.not_fitsWord_of_float alone) (Json.not_fitsWord_of_float alsoAlone)
  · intro pipeline episodes world chronicle run earlier chapter later former shape member accepted
      request isRequest body names authentic
    obtain ⟨lawful, _⟩ := answers_follow_from_what_came_before pipeline run.blank run.unmarked
      run.reliable run.requests run.varied run.apart run.written
    rw [(lawful earlier chapter later request shape isRequest).acknowledges id, ← agree]
    constructor
    · rintro ⟨_, alsoNames, _⟩
      exact alsoNames.unique names rfl
    · rintro rfl
      exact ⟨authentic, names, former, member, accepted⟩

namespace Sample

def numericText (digits : List Char) : String :=
  "\x7b\"event_id\":" ++ String.ofList digits ++ ",\"order\":\x7b\"id\":1\x7d\x7d"

def numericBody (n : Nat) : Bytes :=
  Text.utf8 (numericText (Decimal.digits n))

theorem writes_digits (n : Nat) : Json.WritesInteger (Decimal.digits n) n := by
  have writes := Json.WritesInteger.plain (Decimal.isNumeral_digits n) fun zero => by
    cases Nat.eq_zero_or_pos n with
    | inl same => rw [same, Decimal.digits_of_lt (by decide)]; rfl
    | inr positive => exact absurd zero (Decimal.head?_digits_ne_zero positive)
  rwa [Decimal.placeValue_digits] at writes

theorem writesEventId {n : Nat}
    (isText : Text.ofUtf8? (numericBody n) = some (numericText (Decimal.digits n)))
    (placed : ∃ places ∈ Json.places? (2 * (numericText (Decimal.digits n)).toList.length + 1)
        (Json.skipLayout ((numericText (Decimal.digits n)).toList.drop 1)),
      Json.lastOf? "event_id" places =
        some (Decimal.digits n ++ ",\"order\":\x7b\"id\":1\x7d\x7d".toList)) :
    WritesEventId (numericBody n) n := by
  obtain ⟨places, isPlaces, last⟩ := placed
  refine ⟨_, isText, _, places, _, _, ?_, isPlaces, last, writes_digits n,
    Json.endsLiteral_cons _ (by decide)⟩
  simp only [numericText, String.toList_append]
  rfl

set_option maxRecDepth 100000 in
theorem largest_word_is_no_other_id :
    EventFields.eventIdOfBytes? (numericBody 18446744073709551615) ≠
      EventFields.eventIdOfBytes? (numericBody 18446744073709551616) := by
  have readable : (Json.parseBytes? (numericBody 18446744073709551615)).isSome = true := by
    decide +kernel
  have alsoReadable : (Json.parseBytes? (numericBody 18446744073709551616)).isSome = true := by
    decide +kernel
  have writes : WritesEventId (numericBody 18446744073709551615) 18446744073709551615 :=
    writesEventId (by decide +kernel) (by decide +kernel)
  have alsoWrites : WritesEventId (numericBody 18446744073709551616) 18446744073709551616 :=
    writesEventId (by decide +kernel) (by decide +kernel)
  obtain ⟨id, id', isId, alsoId, _, differ, _⟩ := integer_event_ids_agree_iff_read_alike readable
    alsoReadable writes alsoWrites (by decide)
  rw [isId, alsoId, Ne, Option.some_inj]
  exact differ (Or.inl (by decide))

/-- Requests for an event and for the next one, both beyond 64 bits. -/
def neighbours : List Episode :=
  [.run (.receive { request with body := numericBody 18446744073709551616 }),
    .run (.receive { request with body := numericBody 18446744073709551617 })]

set_option maxRecDepth 100000 in
/-- The second event is taken for the first one. -/
theorem next_integer_is_the_same_id :
    WritesEventId (numericBody 18446744073709551616) 18446744073709551616 ∧
      WritesEventId (numericBody 18446744073709551617) 18446744073709551617 ∧
      EventFields.eventIdOfBytes? (numericBody 18446744073709551616) =
        some "1.8446744073709552e+19" ∧
      EventFields.eventIdOfBytes? (numericBody 18446744073709551617) =
        some "1.8446744073709552e+19" ∧
      ∃ chronicle ∈ (Chronicle.opening {}).write pipeline neighbours,
        chronicle.chapters.map (fun chapter => chapter.outcome.receipt?) =
            [some (.accepted "1.8446744073709552e+19" (.ofNat 0)),
              some (.duplicate "1.8446744073709552e+19")] ∧
          chronicle.world.jobs.jobs.length = 1 :=
  ⟨writesEventId (by decide +kernel) (by decide +kernel),
    writesEventId (by decide +kernel) (by decide +kernel), by decide +kernel, by decide +kernel,
    by decide +kernel⟩

end Sample

end WebhookRelay
