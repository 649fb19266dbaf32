import WebhookRelay.Uuid
import Mathlib.Algebra.Group.Nat.Defs

/-!
# Written identifiers

The 32 hexadecimal digits of an identifier name its value again, and the groups in which
they are written can be told apart, so every identifier is read back from its text.
-/

set_option autoImplicit false

namespace WebhookRelay

namespace Hex

theorem digitValue?_digit {n : Nat} (small : n < 16) : digitValue? (digit n) = some n := by
  have every : ∀ k < 16, digitValue? (digit k) = some k := by decide
  exact every n small

theorem length_fixed (width n : Nat) : (fixed width n).length = width := by
  induction width generalizing n with
  | zero => rfl
  | succ width ih => simp [fixed, ih]

theorem number?_concat (front : List Char) (c : Char) :
    number? (front ++ [c]) =
      (number? front).bind fun total => (digitValue? c).map (total * 16 + ·) := by
  simp [number?, List.foldlM_append, Option.bind_eq_bind]

/-- A number of digits keeps what that many digits can hold. -/
theorem number?_fixed (width n : Nat) : number? (fixed width n) = some (n % 16 ^ width) := by
  induction width generalizing n with
  | zero => simp [fixed, number?, Nat.mod_one]
  | succ width ih =>
      have last := digitValue?_digit (Nat.mod_lt n (by decide : 16 > 0))
      rw [fixed, number?_concat, ih, Option.bind_some, last, Option.map_some, Nat.pow_succ',
        Nat.mod_mul]
      congr 1
      omega

end Hex

namespace Uuid

theorem length_group {digits : List Char} (all : digits.length = 32) :
    (group digits).length = 36 := by
  simp [group, all]

theorem ofGroups?_group {digits : List Char} (all : digits.length = 32) :
    ofGroups? (group digits) = ofDigits? digits := by
  have groups (start : Nat) :
      (digits.drop start).take 4 ++ digits.drop (start + 4) = digits.drop start := by
    rw [← List.drop_drop, List.take_append_drop]
  have parts : (group digits).take 8 ++ ((group digits).drop 9).take 4 ++
      ((group digits).drop 14).take 4 ++ ((group digits).drop 19).take 4 ++
      (group digits).drop 24 =
        digits.take 8 ++ ((digits.drop 8).take 4 ++ ((digits.drop 12).take 4 ++
          ((digits.drop 16).take 4 ++ digits.drop 20))) := by
    simp [group, List.drop_append, List.drop_take, all]
  rw [groups 16, groups 12, groups 8, List.take_append_drop] at parts
  simp only [ofGroups?, parts, if_true]

theorem parse?_render (id : Uuid) : parse? id.render = some id := by
  have length := Hex.length_fixed 32 id.value
  rw [parse?, render, String.toList_ofList, chars, ofChars?]
  simp only [length_group length]
  rw [ofGroups?_group length, ofDigits?, if_pos length, Hex.number?_fixed, Option.map_some]
  exact congrArg some (congrArg Uuid.mk (Fin.ext (by simp [Nat.mod_eq_of_lt id.value.isLt])))

end Uuid

end WebhookRelay
