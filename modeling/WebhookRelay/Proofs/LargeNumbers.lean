import WebhookRelay.Number.Shortest
import WebhookRelay.Proofs.Numerals
import Mathlib.Algebra.Order.Ring.Nat
import Mathlib.Tactic.Ring

/-!
# Texts of large binary numbers

A binary number that reaches 2 ^ 60 is written with an exponent, from digits that name a whole
number in its interval.  The intervals of two such numbers meet in an end at most, which belongs
to one of them only.  So the text of a large number is the text of no other one.
-/

set_option autoImplicit false

namespace WebhookRelay

namespace Binary64

/-! ## Numbers that reach a power of two -/

def powerBits (e : Nat) : Nat :=
  (e + 1023) * 0x10000000000000

theorem powerBits_le {e : Nat} (finite : e ≤ 1023) : powerBits e ≤ infinityBits := by
  unfold powerBits infinityBits
  omega

theorem magnitudeOfRatio_le (num den : Nat) : magnitudeOfRatio num den ≤ infinityBits := by
  unfold magnitudeOfRatio
  split
  · exact Nat.zero_le _
  · exact Nat.min_le_right ..

variable {num den e : Nat}

theorem le_leadingExponent (positive : 0 < den) (reached : 2 ^ e * den ≤ num) :
    (e : Int) ≤ leadingExponent num den := by
  have den_ne : den ≠ 0 := by omega
  have num_ne : num ≠ 0 := by
    have := Nat.mul_pos (Nat.two_pow_pos e) positive
    omega
  have logs : e + den.log2 ≤ num.log2 := by
    rw [Nat.le_log2 num_ne, Nat.pow_add]
    exact Nat.le_trans (Nat.mul_le_mul_left _ (Nat.log2_self_le den_ne)) reached
  unfold leadingExponent
  dsimp only
  by_cases same : e + den.log2 = num.log2
  · have guess : (num.log2 : Int) - den.log2 = e := by omega
    have nonneg : (0 : Int) ≤ e := Int.natCast_nonneg e
    have isReached : if 0 ≤ (e : Int) then den * Nat.pow 2 (e : Int).toNat ≤ num
        else den ≤ num * Nat.pow 2 (-(e : Int)).toNat := by
      rw [if_pos nonneg, Int.toNat_natCast, Nat.mul_comm]
      exact reached
    rw [guess, if_pos isReached]
  · have above : (e : Int) + 1 ≤ num.log2 - den.log2 := by omega
    split <;> omega

theorem le_roundHalfEven {n : Nat} (positive : 0 < den) (reached : n * den ≤ num) :
    n ≤ roundHalfEven num den := by
  have quotient : n ≤ num / den := (Nat.le_div_iff_mul_le positive).mpr reached
  unfold roundHalfEven
  dsimp only
  split
  · exact quotient
  · split
    · exact Nat.le_succ_of_le quotient
    · exact Nat.le_trans quotient (Nat.le_add_right ..)

theorem powerBits_le_magnitudeOfRatio (positive : 0 < den) (finite : e ≤ 1023)
    (reached : 2 ^ e * den ≤ num) : powerBits e ≤ magnitudeOfRatio num den := by
  have leading := le_leadingExponent positive reached
  have num_ne : num ≠ 0 := by
    have := Nat.mul_pos (Nat.two_pow_pos e) positive
    omega
  unfold magnitudeOfRatio
  rw [if_neg num_ne]
  dsimp only
  refine Nat.le_min.mpr ⟨?_, powerBits_le finite⟩
  generalize leadingExponent num den = lead at leading
  have larger : max (lead - 52) (-1074) = lead - 52 := by omega
  rw [larger]
  -- Above the power the exponent alone is enough; at the power the significand has its top bit.
  by_cases above : (e : Int) + 1 ≤ lead
  · have biased : e + 1023 ≤ (lead - 52 + 1074).toNat := by omega
    refine Nat.le_trans (Nat.mul_le_mul_right _ biased) (Nat.le_add_right ..)
  · obtain rfl : lead = e := by omega
    have biased : ((e : Int) - 52 + 1074).toNat = e + 1022 := by omega
    have significand : 0x10000000000000 ≤
        (if 0 ≤ (e : Int) - 52 then roundHalfEven num (den * Nat.pow 2 ((e : Int) - 52).toNat)
        else roundHalfEven (num * Nat.pow 2 (-((e : Int) - 52)).toNat) den) := by
      split
      · refine le_roundHalfEven (Nat.mul_pos positive (Nat.two_pow_pos _)) ?_
        have exponents : 52 + ((e : Int) - 52).toNat = e := by omega
        calc 2 ^ 52 * (den * 2 ^ ((e : Int) - 52).toNat)
            = 2 ^ (52 + ((e : Int) - 52).toNat) * den := by rw [Nat.pow_add]; ring
          _ ≤ num := by rw [exponents]; exact reached
      · refine le_roundHalfEven positive ?_
        have exponents : e + (-((e : Int) - 52)).toNat = 52 := by omega
        calc 2 ^ 52 * den = 2 ^ (e + (-((e : Int) - 52)).toNat) * den := by rw [exponents]
          _ = 2 ^ e * den * 2 ^ (-((e : Int) - 52)).toNat := by rw [Nat.pow_add]; ring
          _ ≤ num * 2 ^ (-((e : Int) - 52)).toNat := Nat.mul_le_mul_right _ reached
    rw [biased, powerBits, Nat.succ_mul (e + 1022)]
    exact Nat.add_le_add_left significand _

theorem parts_of_powerBits_le {magnitude : Nat} (large : powerBits e ≤ magnitude) :
    2 ^ 52 ≤ (parts magnitude).1 ∧ (e : Int) - 52 ≤ (parts magnitude).2 := by
  have biased : e + 1023 ≤ magnitude / 0x10000000000000 :=
    (Nat.le_div_iff_mul_le (by decide)).mpr large
  have positive : ¬magnitude / 0x10000000000000 = 0 := by omega
  unfold parts
  dsimp only
  rw [if_neg positive]
  constructor
  · exact Nat.le_add_right ..
  · dsimp only
    omega

/-- A number that reaches 2 ^ 60, times one that reaches 1. -/
theorem powerBits_le_mulMagnitude {a b : Nat} (large : powerBits 60 ≤ a) (one : powerBits 0 ≤ b) :
    powerBits 60 ≤ mulMagnitude a b := by
  obtain ⟨significand, exponent⟩ := parts_of_powerBits_le large
  obtain ⟨otherSignificand, otherExponent⟩ := parts_of_powerBits_le one
  unfold mulMagnitude
  generalize parts a = first at *
  generalize parts b = second at *
  obtain ⟨m, p⟩ := first
  obtain ⟨n, q⟩ := second
  dsimp only at *
  have product : 2 ^ 104 ≤ m * n := by
    have both := Nat.mul_le_mul significand otherSignificand
    rwa [← Nat.pow_add] at both
  unfold ratioOf
  split
  · refine powerBits_le_magnitudeOfRatio Nat.one_pos (by decide) ?_
    calc 2 ^ 60 * 1 ≤ m * n := Nat.le_trans (by decide) product
      _ ≤ m * n * 2 ^ (p + q).toNat := Nat.le_mul_of_pos_right _ (Nat.two_pow_pos _)
  · refine powerBits_le_magnitudeOfRatio (Nat.two_pow_pos _) (by decide) ?_
    have exponents : 60 + (-(p + q)).toNat ≤ 104 := by omega
    calc 2 ^ 60 * 2 ^ (-(p + q)).toNat = 2 ^ (60 + (-(p + q)).toNat) := (Nat.pow_add ..).symm
      _ ≤ 2 ^ 104 := Nat.pow_le_pow_right (by decide) exponents
      _ ≤ m * n := product

/-! ## Sign and magnitude -/

theorem ext_of_magnitude {x y : Binary64} (sign : x.isNegative = y.isNegative)
    (magnitude : x.magnitude = y.magnitude) : x = y := by
  obtain ⟨xBits⟩ := x
  obtain ⟨yBits⟩ := y
  have xBound := xBits.toNat_lt
  have yBound := yBits.toNat_lt
  simp only [isNegative, Binary64.magnitude, signBit] at sign magnitude
  congr 1
  apply UInt64.toNat_inj.mp
  have same : 0x8000000000000000 ≤ xBits.toNat ↔ 0x8000000000000000 ≤ yBits.toNat :=
    decide_eq_decide.mp sign
  omega

theorem toNat_ofMagnitude {magnitude : Nat} (negative : Bool) (small : magnitude < signBit) :
    (ofMagnitude negative magnitude).bits.toNat =
      (if negative then signBit else 0) + magnitude := by
  unfold ofMagnitude
  rw [UInt64.toNat_ofNat']
  unfold signBit at *
  cases negative <;> simp <;> omega

theorem magnitude_ofMagnitude {magnitude : Nat} (negative : Bool) (small : magnitude < signBit) :
    (ofMagnitude negative magnitude).magnitude = magnitude := by
  rw [Binary64.magnitude, toNat_ofMagnitude negative small]
  unfold signBit at *
  cases negative <;> simp <;> omega

end Binary64

namespace Decimal

theorem lt_pow_length_digits (n : Nat) : n < 10 ^ (digits n).length := by
  induction n using digits.induct with
  | case1 n small =>
      rw [digits_of_lt small]
      exact small
  | case2 n large ih =>
      rw [digits, if_neg large, List.length_append, List.length_singleton, Nat.pow_succ]
      omega

end Decimal

namespace Shortest

open Binary64 (powerBits)

/-! ## Intervals -/

/-- The whole number rounds to the number with these magnitude bits. -/
def Covers (magnitude point : Nat) : Prop :=
  inside (Interval.ofMagnitude magnitude) 0 point = true

variable {magnitude other point : Nat}

/-- The interval of a number whose spacing is four at least has whole ends and a whole
middle. -/
theorem ofMagnitude_of_large (large : powerBits 54 ≤ magnitude) :
    Interval.ofMagnitude magnitude =
      let fraction := magnitude % 0x10000000000000
      let significand := 4 * (0x10000000000000 + fraction)
      let scale := 2 ^ (magnitude / 0x10000000000000 - 1077)
      { low := (significand - if fraction = 0 then 1 else 2) * scale
        value := significand * scale
        high := (significand + 2) * scale
        den := 1
        closed := magnitude % 2 = 0 } := by
  have biased : 1077 ≤ magnitude / 0x10000000000000 :=
    (Nat.le_div_iff_mul_le (by decide)).mpr large
  have positive : ¬magnitude / 0x10000000000000 = 0 := by omega
  have shift : (0 : Int) ≤ (magnitude / 0x10000000000000 : Nat) - 1075 - 2 := by omega
  have exponent : ((magnitude / 0x10000000000000 : Nat) - 1075 - 2 : Int).toNat =
      magnitude / 0x10000000000000 - 1077 := by omega
  have even : (0x10000000000000 + magnitude % 0x10000000000000) % 2 = magnitude % 2 := by omega
  have lowest : (0x10000000000000 + magnitude % 0x10000000000000 = 0x10000000000000 ∧
      (-1074 : Int) < (magnitude / 0x10000000000000 : Nat) - 1075) ↔
        magnitude % 0x10000000000000 = 0 := by omega
  unfold Interval.ofMagnitude Binary64.parts
  dsimp only
  rw [if_neg positive]
  simp only [Binary64.ratioOf, if_pos shift, exponent, Nat.one_mul, even, lowest]
  rfl

def lowerEnd (magnitude : Nat) : Nat :=
  (Interval.ofMagnitude magnitude).low

def upperEnd (magnitude : Nat) : Nat :=
  (Interval.ofMagnitude magnitude).high

theorem inside_zero (interval : Interval) (whole : interval.den = 1) :
    inside interval 0 point = true ↔ interval.low ≤ point ∧ point ≤ interval.high ∧
      (interval.closed = false → interval.low < point ∧ point < interval.high) := by
  unfold inside gridPoint scaled
  rw [whole]
  cases interval.closed with
  | false =>
      simp
      omega
  | true => simp

/-- On a grid of whole numbers, a point is in the interval or not as a whole number. -/
theorem inside_natCast (interval : Interval) (whole : interval.den = 1) (k digits : Nat) :
    inside interval k digits = inside interval 0 (digits * 10 ^ k) := by
  have nonneg : (0 : Int) ≤ k := Int.natCast_nonneg k
  unfold inside gridPoint scaled
  simp only [whole, if_pos nonneg, Int.toNat_natCast, Int.le_refl, if_true, Int.toNat_zero,
    Nat.pow_eq, Nat.pow_zero, Nat.mul_one]

theorem covers_iff (large : powerBits 54 ≤ magnitude) :
    Covers magnitude point ↔ lowerEnd magnitude ≤ point ∧ point ≤ upperEnd magnitude ∧
      (¬magnitude % 2 = 0 → lowerEnd magnitude < point ∧ point < upperEnd magnitude) := by
  have shape := ofMagnitude_of_large large
  unfold Covers lowerEnd upperEnd
  rw [inside_zero _ (by rw [shape]), shape]
  simp only [decide_eq_false_iff_not]

theorem lowerEnd_lt_value (large : powerBits 54 ≤ magnitude) :
    lowerEnd magnitude < (Interval.ofMagnitude magnitude).value ∧
      (Interval.ofMagnitude magnitude).value < upperEnd magnitude := by
  rw [lowerEnd, upperEnd, ofMagnitude_of_large large]
  dsimp only
  have positive := Nat.two_pow_pos (magnitude / 0x10000000000000 - 1077)
  constructor
  · refine Nat.mul_lt_mul_of_pos_right ?_ positive
    split <;> omega
  · exact Nat.mul_lt_mul_of_pos_right (by omega) positive

/-- One interval ends where the next one begins. -/
theorem upperEnd_eq (large : powerBits 54 ≤ magnitude) :
    upperEnd magnitude = lowerEnd (magnitude + 1) := by
  have biased : 1077 ≤ magnitude / 0x10000000000000 :=
    (Nat.le_div_iff_mul_le (by decide)).mpr large
  rw [upperEnd, lowerEnd, ofMagnitude_of_large large,
    ofMagnitude_of_large (Nat.le_succ_of_le large)]
  dsimp only
  -- Behind the last significand the spacing doubles, and only a quarter of it lies below.
  by_cases last : magnitude % 0x10000000000000 = 0xFFFFFFFFFFFFF
  · have fraction : (magnitude + 1) % 0x10000000000000 = 0 := by omega
    have exponent : (magnitude + 1) / 0x10000000000000 - 1077 =
        magnitude / 0x10000000000000 - 1077 + 1 := by omega
    rw [fraction, exponent, last, Nat.pow_succ, if_pos rfl]
    ring
  · have fraction : (magnitude + 1) % 0x10000000000000 = magnitude % 0x10000000000000 + 1 := by
      omega
    have exponent : (magnitude + 1) / 0x10000000000000 = magnitude / 0x10000000000000 := by omega
    rw [fraction, exponent, if_neg (by omega)]
    congr 1

theorem upperEnd_le_lowerEnd (large : powerBits 54 ≤ magnitude) (later : magnitude < other) :
    upperEnd magnitude ≤ lowerEnd other := by
  induction other, later using Nat.le_induction with
  | base => exact Nat.le_of_eq (upperEnd_eq large)
  | succ other later ih =>
      have alsoLarge : powerBits 54 ≤ other := by omega
      obtain ⟨below, above⟩ := lowerEnd_lt_value alsoLarge
      rw [← upperEnd_eq alsoLarge]
      omega

theorem upperEnd_lt_lowerEnd (large : powerBits 54 ≤ magnitude) (later : magnitude + 1 < other) :
    upperEnd magnitude < lowerEnd other := by
  have next : powerBits 54 ≤ magnitude + 1 := by omega
  obtain ⟨below, above⟩ := lowerEnd_lt_value next
  have between := upperEnd_le_lowerEnd next later
  rw [upperEnd_eq large]
  omega

/-- Where two intervals meet, one of them is open: of two neighbours one is odd. -/
theorem Covers.unique (covers : Covers magnitude point) (also : Covers other point)
    (large : powerBits 54 ≤ magnitude) (alsoLarge : powerBits 54 ≤ other) :
    magnitude = other := by
  have ordered {one two : Nat} (large : powerBits 54 ≤ one) (alsoLarge : powerBits 54 ≤ two)
      (covers : Covers one point) (also : Covers two point) : ¬one < two := by
    intro later
    obtain ⟨_, below, open_⟩ := (covers_iff large).mp covers
    obtain ⟨above, _, alsoOpen⟩ := (covers_iff alsoLarge).mp also
    by_cases next : two = one + 1
    · have meet := upperEnd_le_lowerEnd large later
      rcases Nat.mod_two_eq_zero_or_one one with even | odd
      · have strict := (alsoOpen (by omega)).1
        omega
      · have strict := (open_ (by omega)).2
        omega
    · have apart : upperEnd one < lowerEnd two := upperEnd_lt_lowerEnd large (by omega)
      omega
  have one := ordered large alsoLarge covers also
  have two := ordered alsoLarge large also covers
  omega

/-! ## The search -/

theorem nearest?_inside {interval : Interval} {k : Int} {digits : Nat}
    (found : nearest? interval k = some digits) : inside interval k digits = true := by
  unfold nearest? at found
  dsimp only at found
  generalize scaled k interval.value / gridPoint interval k 1 = down at found
  split at found
  · cases found
  · rename_i isInside _
    cases found
    exact isInside
  · rename_i _ isInside
    cases found
    exact isInside
  · rename_i isInside alsoInside
    split at found
    · cases found
      exact isInside
    · split at found
      · cases found
        exact alsoInside
      · cases found
        rcases Nat.mod_two_eq_zero_or_one down with even | odd
        · rw [even]
          exact isInside
        · rw [odd]
          exact alsoInside

/-- The value itself is a point of the grid of whole numbers. -/
theorem nearest?_zero (large : powerBits 54 ≤ magnitude) :
    (nearest? (Interval.ofMagnitude magnitude) 0).isSome = true := by
  have whole : (Interval.ofMagnitude magnitude).den = 1 := by rw [ofMagnitude_of_large large]
  obtain ⟨below, above⟩ := lowerEnd_lt_value large
  have covers : inside (Interval.ofMagnitude magnitude) 0
      (Interval.ofMagnitude magnitude).value = true :=
    (inside_zero _ whole).mpr ⟨Nat.le_of_lt below, Nat.le_of_lt above, fun _ => ⟨below, above⟩⟩
  have unit : gridPoint (Interval.ofMagnitude magnitude) 0 1 = 1 := by
    simp [gridPoint, whole]
  have value : scaled 0 (Interval.ofMagnitude magnitude).value =
      (Interval.ofMagnitude magnitude).value := rfl
  unfold nearest?
  dsimp only
  rw [unit, value, Nat.div_one, covers]
  cases inside (Interval.ofMagnitude magnitude) 0 ((Interval.ofMagnitude magnitude).value + 1) with
  | false => rfl
  | true => simp only [Nat.mod_one]; rfl

theorem search_of_nearest? {interval : Interval} (found : (nearest? interval 0).isSome = true)
    {fuel start : Nat} (enough : start < fuel) :
    ∃ digits k : Nat, search interval fuel start = (digits, (k : Int)) ∧
      inside interval k digits = true := by
  -- The exponent falls with the fuel, so it is at zero before the fuel is.
  induction fuel generalizing start with
  | zero => omega
  | succ fuel ih =>
      unfold search
      cases nearest : nearest? interval start with
      | some digits => exact ⟨digits, start, rfl, nearest?_inside nearest⟩
      | none =>
          cases start with
          | zero =>
              rw [show nearest? interval 0 = none from nearest] at found
              cases found
          | succ start =>
              have before : ((start + 1 : Nat) : Int) - 1 = start := by omega
              dsimp only
              rw [before]
              exact ih (by omega)

/-- The decimal of a large number is a whole number in its interval. -/
theorem decimal_of_large (large : powerBits 54 ≤ magnitude) :
    ∃ digits k : Nat, decimal magnitude = (digits, (k : Int)) ∧
      Covers magnitude (digits * 10 ^ k) := by
  have whole : (Interval.ofMagnitude magnitude).den = 1 := by rw [ofMagnitude_of_large large]
  obtain ⟨digits, k, found, isInside⟩ :=
    search_of_nearest? (nearest?_zero large) (show 309 < 700 by decide)
  refine ⟨digits, k, found, ?_⟩
  rw [inside_natCast _ whole] at isInside
  exact isInside

/-! ## The text -/

/-- The digits of a number with a point behind the first one, if there are more. -/
def mantissa : List Char → List Char
  | [] => []
  | [c] => [c]
  | c :: rest => c :: '.' :: rest

theorem layout_large {digits : List Char} {k : Nat} (large : 17 ≤ k + digits.length) :
    layout digits k =
      mantissa digits ++ 'e' :: '+' :: Decimal.digits (k + digits.length - 1) := by
  have plain : ¬(plainFrom ≤ (k : Int) + digits.length - 1 ∧
      (k : Int) + digits.length - 1 ≤ plainTo) := by
    unfold plainFrom plainTo
    omega
  have positive : ¬(k : Int) + digits.length - 1 < 0 := by omega
  have lead : ((k : Int) + digits.length - 1).natAbs = k + digits.length - 1 := by omega
  unfold layout
  dsimp only
  rw [if_neg plain, if_neg positive, lead]
  match digits with
  | [] => rfl
  | [c] => rfl
  | c :: next :: rest => simp [mantissa]

theorem mantissa_injective {one other : List Char} (same : mantissa one = mantissa other) :
    one = other := by
  match one, other with
  | [], [] => rfl
  | [_], [_] => exact same
  | _ :: _ :: _, _ :: _ :: _ =>
      obtain ⟨rfl, tails⟩ := List.cons.inj same
      rw [(List.cons.inj tails).2]
  | [], [_] | [], _ :: _ :: _ | [_], [] | [_], _ :: _ :: _ | _ :: _ :: _, [] | _ :: _ :: _, [_] =>
      cases same

theorem mem_mantissa {digits : List Char} {c : Char} (member : c ∈ mantissa digits) :
    c = '.' ∨ c ∈ digits := by
  match digits with
  | [] => cases member
  | [_] => exact Or.inr member
  | first :: next :: rest =>
      simp only [mantissa, List.mem_cons] at member ⊢
      tauto

theorem not_mem_mantissa (n : Nat) : 'e' ∉ mantissa (Decimal.digits n) := by
  intro member
  rcases mem_mantissa member with same | digit
  · exact absurd same (by decide)
  · exact absurd (Decimal.isDigit_of_mem_digits digit) (by decide)

theorem append_cons_inj {mark : Char} {front front' back back' : List Char}
    (unmarked : mark ∉ front) (alsoUnmarked : mark ∉ front')
    (same : front ++ mark :: back = front' ++ mark :: back') : front = front' ∧ back = back' := by
  induction front generalizing front' with
  | nil =>
      cases front' with
      | nil => exact ⟨rfl, (List.cons.inj same).2⟩
      | cons c front' =>
          obtain ⟨rfl, _⟩ := List.cons.inj same
          exact absurd List.mem_cons_self alsoUnmarked
  | cons c front ih =>
      cases front' with
      | nil =>
          obtain ⟨rfl, _⟩ := List.cons.inj same
          exact absurd List.mem_cons_self unmarked
      | cons c' front' =>
          obtain ⟨rfl, tails⟩ := List.cons.inj same
          obtain ⟨rfl, backs⟩ := ih (fun member => unmarked (List.mem_cons_of_mem _ member))
            (fun member => alsoUnmarked (List.mem_cons_of_mem _ member)) tails
          exact ⟨rfl, backs⟩

theorem le_lowerEnd (large : powerBits 60 ≤ magnitude) : 10 ^ 17 ≤ lowerEnd magnitude := by
  have biased : 1083 ≤ magnitude / 0x10000000000000 :=
    (Nat.le_div_iff_mul_le (by decide)).mpr large
  have scale : 2 ^ 6 ≤ 2 ^ (magnitude / 0x10000000000000 - 1077) :=
    Nat.pow_le_pow_right (by decide) (by omega)
  rw [lowerEnd, ofMagnitude_of_large (Nat.le_trans (by decide) large)]
  dsimp only
  refine Nat.le_trans ?_ (Nat.mul_le_mul_left _ scale)
  split <;> omega

/-- The text of a large number: its sign, digits that name a whole number in its interval, and
an exponent. -/
theorem chars_of_large {x : Binary64} (large : powerBits 60 ≤ x.magnitude) :
    ∃ digits k : Nat, Covers x.magnitude (digits * 10 ^ k) ∧
      chars x = (if x.isNegative then ['-'] else []) ++ (mantissa (Decimal.digits digits) ++
        'e' :: '+' :: Decimal.digits (k + (Decimal.digits digits).length - 1)) := by
  have alsoLarge : powerBits 54 ≤ x.magnitude := Nat.le_trans (by decide) large
  obtain ⟨digits, k, found, covers⟩ := decimal_of_large alsoLarge
  refine ⟨digits, k, covers, ?_⟩
  have nonzero : ¬x.magnitude = 0 := by
    unfold powerBits at large
    omega
  have long : 17 < k + (Decimal.digits digits).length := by
    have reached := Nat.le_trans (le_lowerEnd large) ((covers_iff alsoLarge).mp covers).1
    apply (Nat.pow_lt_pow_iff_right (by decide : 1 < 10)).mp
    calc 10 ^ 17 ≤ digits * 10 ^ k := reached
      _ < 10 ^ (Decimal.digits digits).length * 10 ^ k :=
          Nat.mul_lt_mul_of_pos_right (Decimal.lt_pow_length_digits digits)
            (Nat.pow_pos (by decide))
      _ = 10 ^ (k + (Decimal.digits digits).length) := by rw [Nat.pow_add, Nat.mul_comm]
  unfold chars
  dsimp only
  rw [if_neg nonzero, found]
  dsimp only
  rw [layout_large (Nat.le_of_lt long)]

theorem sign_append_inj {one other : Bool} {front front' : List Char}
    (digit : ∀ c ∈ front.head?, Decimal.isDigit c = true)
    (alsoDigit : ∀ c ∈ front'.head?, Decimal.isDigit c = true)
    (same : (if one then ['-'] else []) ++ front = (if other then ['-'] else []) ++ front') :
    one = other ∧ front = front' := by
  cases one <;> cases other
  · exact ⟨rfl, same⟩
  · have first := digit '-' (by rw [show front = '-' :: front' from same]; rfl)
    cases first
  · have first := alsoDigit '-' (by rw [← show '-' :: front = front' from same]; rfl)
    cases first
  · exact ⟨rfl, (List.cons.inj same).2⟩

theorem head?_mantissa (n : Nat) (rest : List Char) :
    ∀ c ∈ (mantissa (Decimal.digits n) ++ rest).head?, Decimal.isDigit c = true := by
  obtain ⟨c, tail, shape, digit⟩ := Decimal.digits_eq_cons n
  rw [shape]
  cases tail <;> (intro first member; cases member; exact digit)

theorem chars_injective_of_large {x y : Binary64} (large : powerBits 60 ≤ x.magnitude)
    (alsoLarge : powerBits 60 ≤ y.magnitude) (same : chars x = chars y) : x = y := by
  obtain ⟨digits, k, covers, text⟩ := chars_of_large large
  obtain ⟨digits', k', covers', text'⟩ := chars_of_large alsoLarge
  rw [text, text'] at same
  obtain ⟨signs, bodies⟩ := sign_append_inj (head?_mantissa _ _) (head?_mantissa _ _) same
  obtain ⟨mantissas, exponents⟩ := append_cons_inj (not_mem_mantissa _) (not_mem_mantissa _) bodies
  have sameDigits : digits = digits' := by
    rw [← Decimal.ofDigits_digits digits, mantissa_injective mantissas, Decimal.ofDigits_digits]
  subst sameDigits
  have leads : k + (Decimal.digits digits).length - 1 =
      k' + (Decimal.digits digits).length - 1 := by
    rw [← Decimal.ofDigits_digits (k + _ - 1), (List.cons.inj exponents).2,
      Decimal.ofDigits_digits]
  have some_digit : 0 < (Decimal.digits digits).length :=
    List.length_pos_iff.mpr (Decimal.digits_ne_nil digits)
  have scales : k = k' := by omega
  subst scales
  have spaced : powerBits 54 ≤ powerBits 60 := by decide
  exact Binary64.ext_of_magnitude signs
    (covers.unique covers' (Nat.le_trans spaced large) (Nat.le_trans spaced alsoLarge))

theorem mem_chars_of_large {x : Binary64} (large : powerBits 60 ≤ x.magnitude) : 'e' ∈ chars x := by
  obtain ⟨digits, k, _, text⟩ := chars_of_large large
  rw [text]
  simp

end Shortest

end WebhookRelay
