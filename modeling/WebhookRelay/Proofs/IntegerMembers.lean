import WebhookRelay.Proofs.WrittenIntegers
import WebhookRelay.Proofs.WrittenValues
import Mathlib.Data.List.Forall2
import Mathlib.Data.List.Induction

/-!
# Integers as members of an object

The member of an object is the last one that is written under its name.  Where an integer is
written for it, in digits without leading zeros behind a minus sign or none, its value is what
that literal is read as.
-/

set_option autoImplicit false

namespace WebhookRelay

/-! ## Written integers -/

namespace Json

/-- An integer as JSON writes it: digits that start with a zero only if there is no other one,
behind at most a minus sign. -/
inductive WritesInteger : List Char → Int → Prop where
  | plain {digits : List Char} (numeral : Decimal.IsNumeral digits)
      (leading : digits.head? = some '0' → digits = ['0']) :
      WritesInteger digits (Decimal.placeValue digits)
  | minus {digits : List Char} (numeral : Decimal.IsNumeral digits)
      (leading : digits.head? = some '0' → digits = ['0']) :
      WritesInteger ('-' :: digits) (-Decimal.placeValue digits)

end Json

namespace Decimal

theorem digit_digitValue {c : Char} (isDigit : isDigit c = true) : digit (digitValue c) = c := by
  simp only [Decimal.isDigit, Bool.and_eq_true, decide_eq_true_eq] at isDigit
  have small : digitValue c < 10 := by
    unfold digitValue
    omega
  apply Char.toNat_inj.mp
  rw [toNat_digit, Nat.mod_eq_of_lt small]
  unfold digitValue
  omega

theorem placeValue_concat (front : List Char) (c : Char) :
    placeValue (front ++ [c]) = placeValue front * 10 + digitValue c := by
  rw [← ofDigits_eq_placeValue, ofDigits_concat, ofDigits_eq_placeValue]

theorem placeValue_pos {digits : List Char} (numeral : IsNumeral digits)
    (leading : digits.head? ≠ some '0') : 0 < placeValue digits := by
  obtain ⟨c, rest, rfl⟩ := List.exists_cons_of_ne_nil numeral.nonempty
  have digit := isDigit_iff.mpr (numeral.digits c List.mem_cons_self)
  have value : 0 < c.toNat - '0'.toNat := by
    have unlike : c ≠ '0' := fun same => leading (congrArg some same)
    have code : '0'.toNat = 48 := rfl
    have different : c.toNat ≠ 48 := fun same => unlike (Char.toNat_inj.mp same)
    simp only [Decimal.isDigit, Bool.and_eq_true, decide_eq_true_eq] at digit
    omega
  rw [placeValue]
  exact Nat.add_pos_left (Nat.mul_pos value (Nat.pow_pos (by decide))) _

/-- Digits without leading zeros are those that are written for their number. -/
theorem digits_placeValue {chars : List Char} (numeral : IsNumeral chars)
    (leading : chars.head? = some '0' → chars = ['0']) : digits (placeValue chars) = chars := by
  -- From the right, since the digits of a number are split off at the unit.
  induction chars using List.reverseRecOn with
  | nil => exact absurd rfl numeral.nonempty
  | append_singleton front c ih =>
      have last := isDigit_iff.mpr (numeral.digits c (by simp))
      have small : digitValue c < 10 := by
        simp only [isDigit, Bool.and_eq_true, decide_eq_true_eq] at last
        unfold digitValue
        omega
      cases front with
      | nil =>
          rw [placeValue_concat, placeValue, Nat.zero_mul, Nat.zero_add, digits_of_lt small,
            digit_digitValue last]
          rfl
      | cons first rest =>
          have isNumeral : IsNumeral (first :: rest) :=
            ⟨List.cons_ne_nil _ _, fun c member => numeral.digits c (List.mem_append_left _ member)⟩
          have nonzero : (first :: rest).head? ≠ some '0' := by
            intro zero
            have whole := leading zero
            simp at whole
          have positive := placeValue_pos isNumeral nonzero
          have front := ih isNumeral fun zero => absurd zero nonzero
          have large : ¬placeValue (first :: rest ++ [c]) < 10 := by
            rw [placeValue_concat]
            omega
          have quotient : placeValue (first :: rest ++ [c]) / 10 = placeValue (first :: rest) := by
            rw [placeValue_concat]
            omega
          have unit : digit (placeValue (first :: rest ++ [c])) = digit (digitValue c) := by
            rw [placeValue_concat, digit, digit]
            congr 2
            omega
          rw [digits, if_neg large, quotient, front, unit, digit_digitValue last]

end Decimal

namespace Json

def integerLiteral (negative : Bool) (n : Nat) : NumberLiteral where
  negative
  whole := Decimal.digits n
  fraction := none
  exponent := none

def integerText (negative : Bool) (n : Nat) : List Char :=
  (if negative then ['-'] else []) ++ Decimal.digits n

def signed (negative : Bool) (n : Nat) : Int :=
  if negative then -n else n

theorem WritesInteger.cases {literal : List Char} {n : Int} (writes : WritesInteger literal n) :
    ∃ negative magnitude, literal = integerText negative magnitude ∧
      n = signed negative magnitude := by
  cases writes with
  | plain numeral leading =>
      exact ⟨false, _, (Decimal.digits_placeValue numeral leading).symm, rfl⟩
  | minus numeral leading =>
      exact ⟨true, _, congrArg _ (Decimal.digits_placeValue numeral leading).symm, rfl⟩

theorem numberLiteral?_integer (negative : Bool) (magnitude : Nat) {rest : List Char}
    (ended : EndsLiteral rest) :
    numberLiteral? (integerText negative magnitude ++ rest) =
      some (integerLiteral negative magnitude, rest) := by
  have sign : minusSign (integerText negative magnitude ++ rest) =
      (negative, Decimal.digits magnitude ++ rest) := by
    cases negative with
    | false => exact minusSign_digits magnitude rest
    | true => rfl
  unfold numberLiteral?
  rw [sign]
  refine Option.bind_eq_some_iff.mpr ⟨_, wholePart?_digits ended.endsNumber, ?_⟩
  refine Option.bind_eq_some_iff.mpr ⟨_, fraction?_of_endsLiteral ended, ?_⟩
  exact Option.bind_eq_some_iff.mpr ⟨_, exponentPart?_of_endsLiteral ended, rfl⟩

theorem head_integer (negative : Bool) (magnitude : Nat) :
    ∃ c tail, integerText negative magnitude = c :: tail ∧
      (c = '-' ∨ Decimal.isDigit c = true) := by
  cases negative with
  | false =>
      obtain ⟨c, tail, shape, digit⟩ := Decimal.digits_eq_cons magnitude
      exact ⟨c, tail, shape, Or.inr digit⟩
  | true => exact ⟨'-', _, rfl, Or.inl rfl⟩

theorem value?_integer {text rest : List Char} {negative : Bool} {magnitude : Nat} (fuel : Nat)
    (starts : skipLayout text = integerText negative magnitude ++ rest)
    (ended : EndsLiteral rest) :
    value? (fuel + 1) text = some (.number (integerLiteral negative magnitude).value?, rest) := by
  have literal := numberLiteral?_integer negative magnitude ended
  obtain ⟨c, tail, shape, first⟩ := head_integer negative magnitude
  rw [shape, List.cons_append] at literal starts
  unfold value?
  rw [starts]
  split
  case h_7 =>
    rw [literal]
    rfl
  all_goals
    rename_i other
    obtain ⟨rfl, _⟩ := List.cons.inj other
    exact absurd first (by decide)

theorem parse?_ofInt (n : Int) :
    parse? (Decimal.ofInt n) = (integerLiteral (n < 0) n.natAbs).value? := by
  have text : Decimal.signedDigits n = integerText (n < 0) n.natAbs := by
    cases n with
    | ofNat n => rfl
    | negSucc n =>
        rw [decide_eq_true (Int.negSucc_lt_zero n)]
        rfl
  have starts : skipLayout (Decimal.signedDigits n) = integerText (n < 0) n.natAbs ++ [] := by
    rw [(startsValue_signedDigits n).skipLayout, text, List.append_nil]
  have ended : EndsLiteral [] := nofun
  rw [parse?, Decimal.ofInt, String.toList_ofList, Raw.ofChars?, value?_integer _ starts ended]
  rfl

/-! ## Members by their names -/

def lastOf? {α : Type} (name : String) : List (Option String × α) → Option α
  | [] => none
  | (other, value) :: rest =>
      (lastOf? name rest).or (if other = some name then some value else none)

/-- The names of members, each with the text that starts with the value. -/
def places? : (fuel : Nat) → List Char → Option (List (Option String × List Char))
  | 0, _ => none
  | fuel + 1, chars =>
      match skipLayout chars with
      | '"' :: rest => do
          let (name, rest) ← string? rest
          match skipLayout rest with
          | ':' :: rest =>
              let (_, after) ← value? fuel rest
              match skipLayout after with
              | ',' :: more =>
                  let places ← places? fuel more
                  return (name, skipLayout rest) :: places
              | '\x7d' :: _ => return [(name, skipLayout rest)]
              | _ => none
          | _ => none
      | _ => none

/-- The text is an object, and the integer is written for the last member of that name. -/
def HoldsInteger (name : String) (text : String) (n : Int) : Prop :=
  ∃ members places literal rest, skipLayout text.toList = '\x7b' :: members ∧
    places? (2 * text.toList.length + 1) (skipLayout members) = some places ∧
    lastOf? name places = some (literal ++ rest) ∧ WritesInteger literal n ∧ EndsLiteral rest

def StandsAt (raw : Raw) (place : List Char) : Prop :=
  ∃ fuel text after, value? fuel text = some (raw, after) ∧ place = skipLayout text

section Steps

variable {fuel : Nat} {chars quoted behind held after more : List Char} {name : Option String}
  {value : Raw}

theorem places?_next {places : List (Option String × List Char)}
    (quote : skipLayout chars = '"' :: quoted) (named : string? quoted = some (name, behind))
    (colon : skipLayout behind = ':' :: held) (valued : value? fuel held = some (value, after))
    (comma : skipLayout after = ',' :: more) (later : places? fuel more = some places) :
    places? (fuel + 1) chars = some ((name, skipLayout held) :: places) := by
  simp [places?, quote, named, colon, valued, comma, later]

theorem places?_last (quote : skipLayout chars = '"' :: quoted)
    (named : string? quoted = some (name, behind)) (colon : skipLayout behind = ':' :: held)
    (valued : value? fuel held = some (value, after)) (brace : skipLayout after = '\x7d' :: more) :
    places? (fuel + 1) chars = some [(name, skipLayout held)] := by
  simp [places?, quote, named, colon, valued, brace]

end Steps

theorem places?_of_members? {fuel : Nat} {chars rest : List Char}
    {members : List (Option String × Raw)} (read : members? fuel chars = some (members, rest)) :
    ∃ places, places? fuel chars = some places ∧
      List.Forall₂ (fun member place => member.1 = place.1 ∧ StandsAt member.2 place.2)
        members places := by
  induction fuel generalizing chars members with
  | zero => cases read
  | succ fuel ih =>
      unfold members? at read
      split at read
      · rename_i quoted quote
        obtain ⟨⟨name, behind⟩, named, read⟩ := Option.bind_eq_some_iff.mp read
        dsimp only at read
        split at read
        · rename_i held colon
          obtain ⟨⟨value, after⟩, valued, read⟩ := Option.bind_eq_some_iff.mp read
          have stands : StandsAt value (skipLayout held) := ⟨fuel, held, after, valued, rfl⟩
          dsimp only at read
          split at read
          · rename_i more comma
            obtain ⟨⟨others, last⟩, later, same⟩ := Option.bind_eq_some_iff.mp read
            cases same
            obtain ⟨places, found, each⟩ := ih later
            exact ⟨_, places?_next quote named colon valued comma found, .cons ⟨rfl, stands⟩ each⟩
          · rename_i more brace
            cases read
            exact ⟨_, places?_last quote named colon valued brace, .cons ⟨rfl, stands⟩ .nil⟩
          · cases read
        · cases read
      · cases read

theorem lastOf?_of_forall₂ {α β : Type} {R : α → β → Prop} {name : String}
    {one : List (Option String × α)} {other : List (Option String × β)}
    (related : List.Forall₂ (fun a b => a.1 = b.1 ∧ R a.2 b.2) one other) :
    Option.Rel R (lastOf? name one) (lastOf? name other) := by
  induction related with
  | nil => exact .none
  | @cons first second one other same _ ih =>
      obtain ⟨name', value⟩ := first
      obtain ⟨name'', value'⟩ := second
      obtain ⟨rfl, alike⟩ := same
      unfold lastOf?
      generalize lastOf? name one = last at ih ⊢
      generalize lastOf? name other = last' at ih ⊢
      cases ih with
      | none =>
          by_cases named : name' = some name
          · simp only [named, if_true, Option.none_or]
            exact .some alike
          · simp only [named, if_false, Option.none_or]
            exact .none
      | some alike => exact .some alike

section Within

variable {depth : Nat} {name : String} {raws : List (Option String × Raw)}
  {done out : List (String × Json)}

theorem lookup?_of_lastOf?_none (read : Raw.membersWithin? depth done raws = some out)
    (absent : lastOf? name raws = none) : lookup? name out = lookup? name done := by
  induction raws generalizing done with
  | nil =>
      cases read
      rfl
  | cons member rest ih =>
      obtain ⟨own, isNamed, read⟩ := Option.bind_eq_some_iff.mp read
      obtain ⟨value, _, read⟩ := Option.bind_eq_some_iff.mp read
      obtain ⟨later, first⟩ := Option.or_eq_none_iff.mp absent
      have different : name ≠ own := by
        rintro rfl
        rw [isNamed, if_pos rfl] at first
        cases first
      rw [ih read later, lookup?_insertMember_of_ne _ _ different]

/-- The value of a member is that of what is written last under its name. -/
theorem lookup?_of_lastOf? (read : Raw.membersWithin? depth done raws = some out) {raw : Raw}
    (last : lastOf? name raws = some raw) :
    ∃ value, raw.valueWithin? depth = some value ∧ lookup? name out = some value := by
  induction raws generalizing done with
  | nil => cases last
  | cons member rest ih =>
      obtain ⟨own, isNamed, read⟩ := Option.bind_eq_some_iff.mp read
      obtain ⟨value, valued, read⟩ := Option.bind_eq_some_iff.mp read
      unfold lastOf? at last
      cases later : lastOf? name rest with
      | some found =>
          rw [later] at last
          cases last
          exact ih read later
      | none =>
          rw [later, Option.none_or, isNamed] at last
          split at last
          · rename_i same
            cases last
            cases same
            refine ⟨value, valued, ?_⟩
            rw [lookup?_of_lastOf?_none read later, lookup?_insertMember_self]
          · cases last

end Within

theorem value?_brace {fuel : Nat} {text members : List Char}
    (shape : skipLayout text = '\x7b' :: members) :
    value? (fuel + 1) text = match skipLayout members with
      | '\x7d' :: rest => some (.object [], rest)
      | rest => (members? fuel rest).map fun (members, rest) => (.object members, rest) := by
  rw [value?, shape]
  rfl

/-- A value with places for members is an object with members. -/
theorem members?_of_places? {fuel : Nat} {text members after : List Char} {raw : Raw}
    {places : List (Option String × List Char)}
    (read : value? (fuel + 1) text = some (raw, after))
    (shape : skipLayout text = '\x7b' :: members)
    (placed : places? fuel (skipLayout members) = some places) :
    ∃ raws, members? fuel (skipLayout members) = some (raws, after) ∧ raw = .object raws := by
  rw [value?_brace shape] at read
  split at read
  · rename_i empty
    rw [empty] at placed
    cases fuel <;> cases placed
  · obtain ⟨⟨raws, last⟩, isMembers, same⟩ := Option.map_eq_some_iff.mp read
    cases same
    exact ⟨raws, isMembers, rfl⟩

theorem StandsAt.number {raw : Raw} {rest : List Char} {negative : Bool} {magnitude : Nat}
    (stands : StandsAt raw (integerText negative magnitude ++ rest)) (ended : EndsLiteral rest) :
    raw = .number (integerLiteral negative magnitude).value? := by
  obtain ⟨fuel, text, after, read, starts⟩ := stands
  cases fuel with
  | zero => cases read
  | succ fuel =>
      -- The fuel of the object is another one, but what is read does not depend on it.
      rw [value?_integer fuel starts.symm ended] at read
      cases read
      rfl

theorem member?_of_holdsInteger {name text : String} {n : Int} {value : Json}
    (read : parse? text = some value) (holds : HoldsInteger name text n) :
    ∃ negative magnitude, n = signed negative magnitude ∧ ∃ held,
      (integerLiteral negative magnitude).value? = some held ∧ value.member? name = some held := by
  obtain ⟨members, places, literal, rest, shape, placed, last, writes, ended⟩ := holds
  obtain ⟨negative, magnitude, rfl, isInteger⟩ := writes.cases
  refine ⟨negative, magnitude, isInteger, ?_⟩
  obtain ⟨raw, isRaw, valued⟩ := Option.bind_eq_some_iff.mp read
  obtain ⟨⟨found, after⟩, isValue, whole⟩ := Option.bind_eq_some_iff.mp isRaw
  have same : found = raw := by
    dsimp only at whole
    split at whole
    · exact Option.some.inj whole
    · cases whole
  subst same
  obtain ⟨raws, isMembers, rfl⟩ := members?_of_places? isValue shape placed
  obtain ⟨places', alsoPlaced, each⟩ := places?_of_members? isMembers
  obtain rfl : places = places' := Option.some.inj (placed.symm.trans alsoPlaced)
  have lasts : Option.Rel StandsAt (lastOf? name raws) (lastOf? name places) :=
    lastOf?_of_forall₂ each
  rw [last] at lasts
  generalize isLast : lastOf? name raws = lastRaw at lasts
  cases lasts with
  | some stands =>
      obtain ⟨out, within, rfl⟩ := Option.map_eq_some_iff.mp valued
      obtain ⟨held, isHeld, looked⟩ := lookup?_of_lastOf? within isLast
      rw [stands.number ended] at isHeld
      exact ⟨held, isHeld, looked⟩

end Json

end WebhookRelay
