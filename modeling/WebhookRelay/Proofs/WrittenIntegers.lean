import WebhookRelay.Proofs.Numerals

/-!
# Written integers

A text names an integer if it is one or more digits behind at most one sign.  Reading accepts
these texts and no others, and refuses what they name only where it does not fit 64 bits.  An
integer is written in one of these forms.
-/

set_option autoImplicit false

namespace WebhookRelay.Decimal

/-- The number that digits name by the places at which they stand. -/
def placeValue : List Char → Nat
  | [] => 0
  | c :: rest => (c.toNat - '0'.toNat) * 10 ^ rest.length + placeValue rest

/-- One or more of the ten digits. -/
structure IsNumeral (digits : List Char) : Prop where
  nonempty : digits ≠ []
  digits : ∀ c ∈ digits, '0' ≤ c ∧ c ≤ '9'

/-- A numeral behind at most one sign, and the integer that it names. -/
inductive Names : List Char → Int → Prop where
  | unsigned {digits : List Char} (numeral : IsNumeral digits) :
      Names digits (placeValue digits)
  | plus {digits : List Char} (numeral : IsNumeral digits) :
      Names ('+' :: digits) (placeValue digits)
  | minus {digits : List Char} (numeral : IsNumeral digits) :
      Names ('-' :: digits) (-placeValue digits)

theorem foldl_digits (total : Nat) (digits : List Char) :
    digits.foldl (fun total c => total * 10 + digitValue c) total =
      total * 10 ^ digits.length + placeValue digits := by
  induction digits generalizing total with
  | nil => simp [placeValue]
  | cons c rest ih =>
      rw [List.foldl_cons, ih, placeValue, List.length_cons, Nat.pow_succ', Nat.add_mul,
        ← Nat.mul_assoc, Nat.add_assoc]
      rfl

theorem ofDigits_eq_placeValue (digits : List Char) : ofDigits digits = placeValue digits := by
  rw [ofDigits, foldl_digits, Nat.zero_mul, Nat.zero_add]

theorem isDigit_iff {c : Char} : isDigit c = true ↔ '0' ≤ c ∧ c ≤ '9' := by
  rw [isDigit, Bool.and_eq_true, decide_eq_true_eq, decide_eq_true_eq]
  exact Iff.rfl

theorem nat?_eq_some_iff {digits : List Char} {n : Nat} :
    nat? digits = some n ↔ IsNumeral digits ∧ n = placeValue digits := by
  unfold nat?
  split
  · rename_i numeral
    rw [Bool.and_eq_true, Bool.not_eq_true', List.isEmpty_eq_false_iff, List.all_eq_true]
      at numeral
    rw [Option.some_inj, ofDigits_eq_placeValue]
    constructor
    · rintro rfl
      exact ⟨⟨numeral.1, fun c member => isDigit_iff.mp (numeral.2 c member)⟩, rfl⟩
    · rintro ⟨-, rfl⟩
      rfl
  · rename_i refused
    refine ⟨nofun, ?_⟩
    rintro ⟨numeral, -⟩
    refine absurd ?_ refused
    rw [Bool.and_eq_true, Bool.not_eq_true', List.isEmpty_eq_false_iff, List.all_eq_true]
    exact ⟨numeral.nonempty, fun c member => isDigit_iff.mpr (numeral.digits c member)⟩

theorem int?_minus (rest : List Char) :
    int? ('-' :: rest) = (nat? rest).map fun n : Nat => -(n : Int) := by
  rw [int?]
  cases nat? rest <;> rfl

theorem int?_plus (rest : List Char) :
    int? ('+' :: rest) = (nat? rest).map fun n : Nat => (n : Int) := by
  rw [int?]
  cases nat? rest <;> rfl

theorem int?_unsigned {text : List Char} (noMinus : ∀ rest, text ≠ '-' :: rest)
    (noPlus : ∀ rest, text ≠ '+' :: rest) :
    int? text = (nat? text).map fun n : Nat => (n : Int) := by
  rw [int?]
  · cases nat? text <;> rfl
  · exact noMinus
  · exact noPlus

theorem IsNumeral.ne_sign {digits rest : List Char} (numeral : IsNumeral digits) {sign : Char}
    (signs : sign = '-' ∨ sign = '+') : digits ≠ sign :: rest := by
  rintro rfl
  have digit := (numeral.digits sign List.mem_cons_self).1
  rcases signs with rfl | rfl <;> exact absurd digit (by decide)

theorem int?_eq_some_iff {text : List Char} {n : Int} : int? text = some n ↔ Names text n := by
  constructor
  · intro read
    by_cases minus : ∃ rest, text = '-' :: rest
    · obtain ⟨rest, rfl⟩ := minus
      rw [int?_minus] at read
      obtain ⟨m, digits, rfl⟩ := Option.map_eq_some_iff.mp read
      obtain ⟨numeral, rfl⟩ := nat?_eq_some_iff.mp digits
      exact .minus numeral
    · by_cases plus : ∃ rest, text = '+' :: rest
      · obtain ⟨rest, rfl⟩ := plus
        rw [int?_plus] at read
        obtain ⟨m, digits, rfl⟩ := Option.map_eq_some_iff.mp read
        obtain ⟨numeral, rfl⟩ := nat?_eq_some_iff.mp digits
        exact .plus numeral
      · rw [int?_unsigned (not_exists.mp minus) (not_exists.mp plus)] at read
        obtain ⟨m, digits, rfl⟩ := Option.map_eq_some_iff.mp read
        obtain ⟨numeral, rfl⟩ := nat?_eq_some_iff.mp digits
        exact .unsigned numeral
  · intro names
    cases names with
    | unsigned numeral =>
        rw [int?_unsigned (fun _ => numeral.ne_sign (Or.inl rfl))
          (fun _ => numeral.ne_sign (Or.inr rfl)), nat?_eq_some_iff.mpr ⟨numeral, rfl⟩]
        rfl
    | plus numeral =>
        rw [int?_plus, nat?_eq_some_iff.mpr ⟨numeral, rfl⟩]
        rfl
    | minus numeral =>
        rw [int?_minus, nat?_eq_some_iff.mpr ⟨numeral, rfl⟩]
        rfl

theorem int64?_eq_some_iff {text : List Char} {n : Int} :
    int64? text = some n ↔ Names text n ∧ int64Min ≤ n ∧ n ≤ int64Max := by
  rw [int64?, Option.filter_eq_some_iff, int?_eq_some_iff, inInt64, Bool.and_eq_true,
    decide_eq_true_eq, decide_eq_true_eq]

/-! ## Writing -/

theorem isNumeral_digits (n : Nat) : IsNumeral (digits n) :=
  ⟨digits_ne_nil n, fun _ member => isDigit_iff.mp (isDigit_of_mem_digits member)⟩

theorem placeValue_digits (n : Nat) : placeValue (digits n) = n := by
  rw [← ofDigits_eq_placeValue, ofDigits_digits]

theorem names_signedDigits (n : Int) : Names (signedDigits n) n := by
  cases n with
  | ofNat n =>
      have names := Names.unsigned (isNumeral_digits n)
      rwa [placeValue_digits] at names
  | negSucc n =>
      have names := Names.minus (isNumeral_digits (n + 1))
      rwa [placeValue_digits] at names

theorem ne_of_mem_signedDigits {n : Int} {c : Char} (member : c ∈ signedDigits n) :
    c ≠ ',' ∧ Text.isBlank c = false := by
  rcases mem_signedDigits member with rfl | digit
  · exact ⟨by decide, rfl⟩
  · refine ⟨?_, isBlank_of_isDigit digit⟩
    rintro rfl
    cases digit

end WebhookRelay.Decimal
