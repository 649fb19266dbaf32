import WebhookRelay.Number.Decimal
import WebhookRelay.Text.Blank
import Mathlib.Algebra.Group.Nat.Defs

/-!
# Decimal numerals

The digits of a number name that number, also behind zeros that pad them to a width, and a
number below a power of ten fits that many digits.
-/

set_option autoImplicit false

namespace WebhookRelay.Decimal

theorem toNat_digit (n : Nat) : (digit n).toNat = 48 + n % 10 := by
  have every : ∀ k < 10, (Char.ofNat (48 + k)).toNat = 48 + k := by decide
  exact every (n % 10) (Nat.mod_lt n (by decide))

@[simp] theorem isDigit_digit (n : Nat) : isDigit (digit n) = true := by
  have bound : n % 10 < 10 := Nat.mod_lt n (by decide)
  simp only [isDigit, toNat_digit, Bool.and_eq_true, decide_eq_true_eq]
  omega

@[simp] theorem digitValue_digit (n : Nat) : digitValue (digit n) = n % 10 := by
  rw [digitValue, toNat_digit]
  omega

theorem isBlank_of_isDigit {c : Char} (digit : isDigit c = true) : Text.isBlank c = false := by
  simp only [isDigit, Bool.and_eq_true, decide_eq_true_eq] at digit
  simp only [Text.isBlank, Bool.or_eq_false_iff, Bool.and_eq_false_iff, decide_eq_false_iff_not,
    beq_eq_false_iff_ne]
  omega

@[simp] theorem ofDigits_nil : ofDigits [] = 0 := rfl

theorem ofDigits_concat (front : List Char) (c : Char) :
    ofDigits (front ++ [c]) = ofDigits front * 10 + digitValue c := by
  simp [ofDigits]

theorem ofDigits_cons_zero (rest : List Char) : ofDigits ('0' :: rest) = ofDigits rest := rfl

theorem ofDigits_digits (n : Nat) : ofDigits (digits n) = n := by
  induction n using digits.induct with
  | case1 n small =>
      rw [digits, if_pos small, ← List.nil_append [digit n], ofDigits_concat, digitValue_digit,
        ofDigits_nil]
      omega
  | case2 n large ih =>
      rw [digits, if_neg large, ofDigits_concat, ih, digitValue_digit]
      omega

theorem isDigit_of_mem_digits {n : Nat} {c : Char} (member : c ∈ digits n) :
    isDigit c = true := by
  induction n using digits.induct with
  | case1 n small =>
      rw [digits, if_pos small, List.mem_singleton] at member
      rw [member, isDigit_digit]
  | case2 n large ih =>
      rw [digits, if_neg large, List.mem_append, List.mem_singleton] at member
      cases member with
      | inl early => exact ih early
      | inr last => rw [last, isDigit_digit]

theorem mem_signedDigits {n : Int} {c : Char} (member : c ∈ signedDigits n) :
    c = '-' ∨ isDigit c = true := by
  cases n with
  | ofNat n => exact Or.inr (isDigit_of_mem_digits member)
  | negSucc n => exact (List.mem_cons.mp member).imp_right isDigit_of_mem_digits

theorem digits_eq_cons (n : Nat) :
    ∃ c tail, digits n = c :: tail ∧ isDigit c = true := by
  obtain ⟨c, tail, shape⟩ := List.exists_cons_of_ne_nil (digits_ne_nil n)
  exact ⟨c, tail, shape, isDigit_of_mem_digits (shape ▸ List.mem_cons_self ..)⟩

theorem length_digits_le {width n : Nat} (some_width : 0 < width) (small : n < 10 ^ width) :
    (digits n).length ≤ width := by
  induction width generalizing n with
  | zero => omega
  | succ width ih =>
      rw [digits]
      split
      · simp
      · rename_i large
        have shorter : n / 10 < 10 ^ width := by
          rw [pow_succ] at small
          omega
        have positive : 0 < width := by
          cases width with
          | zero => omega
          | succ width => omega
        have := ih positive shorter
        rw [List.length_append, List.length_singleton]
        omega

theorem head?_digits_ne_zero {n : Nat} (positive : 0 < n) : (digits n).head? ≠ some '0' := by
  induction n using digits.induct with
  | case1 n small =>
      rw [digits, if_pos small, List.head?_cons]
      intro zero
      have value := congrArg Char.toNat (Option.some.inj zero)
      rw [toNat_digit] at value
      have code : '0'.toNat = 48 := rfl
      omega
  | case2 n large ih =>
      have front : (digits (n / 10)).head?.isSome = true := by
        simpa using digits_ne_nil (n / 10)
      rw [digits, if_neg large, List.head?_append, Option.or_of_isSome front]
      exact ih (by omega)

/-! ## Padding -/

theorem ofDigits_replicate_append (count : Nat) (rest : List Char) :
    ofDigits (List.replicate count '0' ++ rest) = ofDigits rest := by
  induction count with
  | zero => rfl
  | succ count ih =>
      rw [List.replicate_succ, List.cons_append, ofDigits_cons_zero, ih]

theorem ofDigits_padded (width n : Nat) : ofDigits (padded width n) = n := by
  rw [padded, ofDigits_replicate_append, ofDigits_digits]

theorem isDigit_of_mem_padded {width n : Nat} {c : Char} (member : c ∈ padded width n) :
    isDigit c = true := by
  rw [padded, List.mem_append] at member
  cases member with
  | inl zero => rw [List.eq_of_mem_replicate zero]; rfl
  | inr written => exact isDigit_of_mem_digits written

theorem padded_ne_nil (width n : Nat) : padded width n ≠ [] := by
  rw [padded]
  exact List.append_ne_nil_of_right_ne_nil _ (digits_ne_nil n)

theorem length_padded {width n : Nat} (some_width : 0 < width) (small : n < 10 ^ width) :
    (padded width n).length = width := by
  have fits := length_digits_le some_width small
  rw [padded, List.length_append, List.length_replicate]
  omega

/-! ## Numbers at the head of a text -/

/-- The text does not go on with a digit. -/
def EndsNumber (rest : List Char) : Prop :=
  ∀ c ∈ rest.head?, isDigit c = false

theorem endsNumber_cons {c : Char} (rest : List Char) (mark : isDigit c = false) :
    EndsNumber (c :: rest) := by
  intro first member
  cases member
  exact mark

section Head

variable {digits rest : List Char} (all : ∀ c ∈ digits, isDigit c = true)
  (ended : EndsNumber rest)
include all ended

theorem takeWhile_append : (digits ++ rest).takeWhile isDigit = digits := by
  rw [List.takeWhile_append_of_pos all]
  cases rest with
  | nil => simp
  | cons c rest => simp [ended c rfl]

theorem dropWhile_append : (digits ++ rest).dropWhile isDigit = rest := by
  rw [List.dropWhile_append_of_pos all]
  cases rest with
  | nil => rfl
  | cons c rest => simp [ended c rfl]

end Head

end WebhookRelay.Decimal
