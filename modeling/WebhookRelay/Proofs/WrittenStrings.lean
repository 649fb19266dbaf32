import WebhookRelay.Json.Render
import WebhookRelay.Json.Text
import WebhookRelay.Proofs.WrittenIds

/-!
# Written strings

A text is written between quotes with its quotes, backslashes and control characters
escaped.  Reading undoes every escape, so the text comes back, and what is written holds no
control character: a written string never breaks a line.
-/

set_option autoImplicit false

namespace WebhookRelay.Json

/-- The piece of a string that a written character is read as. -/
def pieceOf (c : Char) : Piece :=
  if c.toNat < 0x20 ∧ c ≠ '\n' ∧ c ≠ '\r' ∧ c ≠ '\t' ∧ c ≠ '\x08' ∧ c ≠ '\x0c' then
    .unit c.toNat
  else .char c

def shortEscaped : List Char :=
  ['"', '\\', '\n', '\r', '\t', '\x08', '\x0c']

/-- A character is written as an escape of one letter, as a code unit or as it is. -/
theorem escapeChar_cases (c : Char) :
    (∃ letter, escapeChar c = ['\\', letter] ∧ simpleEscape? letter = some c ∧
      0x20 ≤ letter.toNat ∧ pieceOf c = .char c) ∨
    (escapeChar c = '\\' :: 'u' :: Hex.fixed 4 c.toNat ∧ c.toNat < 0x20 ∧
      pieceOf c = .unit c.toNat) ∨
    (escapeChar c = [c] ∧ c ≠ '"' ∧ c ≠ '\\' ∧ 0x20 ≤ c.toNat ∧ pieceOf c = .char c) := by
  by_cases short : c ∈ shortEscaped
  · left
    simp only [shortEscaped, List.mem_cons, List.not_mem_nil, or_false] at short
    obtain rfl | rfl | rfl | rfl | rfl | rfl | rfl := short
    all_goals exact ⟨_, rfl, rfl, by decide, rfl⟩
  · right
    simp only [shortEscaped, List.mem_cons, List.not_mem_nil, or_false, not_or] at short
    obtain ⟨quote, backslash, newline, carriageReturn, tab, backspace, formFeed⟩ := short
    rw [escapeChar, if_neg quote, if_neg backslash, if_neg newline, if_neg carriageReturn,
      if_neg tab, if_neg backspace, if_neg formFeed]
    by_cases control : c.toNat < 0x20
    · left
      exact ⟨if_pos control, control,
        if_pos ⟨control, newline, carriageReturn, tab, backspace, formFeed⟩⟩
    · right
      exact ⟨if_neg control, quote, backslash, Nat.le_of_not_lt control,
        if_neg fun all => control all.1⟩

theorem pieces?_unit {n : Nat} (small : n < 0x10000) (rest : List Char) :
    pieces? ('\\' :: 'u' :: (Hex.fixed 4 n ++ rest)) =
      (pieces? rest).map fun (pieces, rest) => (.unit n :: pieces, rest) := by
  obtain ⟨a, b, c, d, written⟩ : ∃ a b c d, Hex.fixed 4 n = [a, b, c, d] :=
    ⟨_, _, _, _, rfl⟩
  have fits : n < 16 ^ 4 := by simpa using small
  have value := Hex.number?_fixed 4 n
  rw [Nat.mod_eq_of_lt fits, written] at value
  rw [written]
  simp only [List.cons_append, List.nil_append, pieces?, value, Option.bind_eq_bind,
    Option.bind_some]
  cases pieces? rest <;> rfl

theorem pieces?_escape {c plain : Char} (escape : simpleEscape? c = some plain)
    (rest : List Char) :
    pieces? ('\\' :: c :: rest) =
      (pieces? rest).map fun (pieces, rest) => (.char plain :: pieces, rest) := by
  rw [pieces?, escape]
  · cases pieces? rest <;> rfl
  · -- the letter that announces a code unit stands for no character itself
    rintro _ _ _ _ _ rfl
    cases escape

theorem pieces?_plain {c : Char} (noQuote : c ≠ '"') (noEscape : c ≠ '\\')
    (visible : 0x20 ≤ c.toNat) (rest : List Char) :
    pieces? (c :: rest) =
      (pieces? rest).map fun (pieces, rest) => (.char c :: pieces, rest) := by
  have allowed : ¬(c.toNat < 0x20 ∨ c = '\\') := not_or.mpr ⟨Nat.not_lt.mpr visible, noEscape⟩
  rw [pieces?, if_neg allowed]
  · cases pieces? rest <;> rfl
  · exact noQuote
  · exact fun _ _ _ _ _ backslash => absurd backslash noEscape
  · exact fun _ _ backslash => absurd backslash noEscape

theorem pieces?_escapeChar (c : Char) (rest : List Char) :
    pieces? (escapeChar c ++ rest) =
      (pieces? rest).map fun (pieces, rest) => (pieceOf c :: pieces, rest) := by
  obtain ⟨letter, written, escape, _, piece⟩ | ⟨written, control, piece⟩ |
    ⟨written, noQuote, noEscape, visible, piece⟩ := escapeChar_cases c
  · rw [written, piece]
    exact pieces?_escape escape rest
  · rw [written, piece]
    exact pieces?_unit (by omega) rest
  · rw [written, piece]
    exact pieces?_plain noQuote noEscape visible rest

theorem pieces?_flatMap (chars rest : List Char) :
    pieces? (chars.flatMap escapeChar ++ '"' :: rest) = some (chars.map pieceOf, rest) := by
  induction chars with
  | nil => simp [pieces?]
  | cons c chars ih =>
      rw [List.flatMap_cons, List.append_assoc, pieces?_escapeChar, ih]
      rfl

/-! ## Pieces joined -/

theorem joinPieces?_unit {n : Nat} (small : n < 0xD800) (rest : List Piece) :
    joinPieces? (.unit n :: rest) = (joinPieces? rest).map (Char.ofNat n :: ·) := by
  have noHigh : isHighSurrogate n = false := by
    simp only [isHighSurrogate, Bool.and_eq_false_iff, decide_eq_false_iff_not]
    omega
  have noLow : isLowSurrogate n = false := by
    simp only [isLowSurrogate, Bool.and_eq_false_iff, decide_eq_false_iff_not]
    omega
  cases rest with
  | nil => simp [joinPieces?, noHigh, noLow]
  | cons next rest =>
      cases next with
      | char c => simp [joinPieces?, noHigh, noLow]
      | unit low => simp [joinPieces?, noHigh, noLow]

theorem joinPieces?_pieceOf (chars : List Char) :
    joinPieces? (chars.map pieceOf) = some chars := by
  induction chars with
  | nil => rfl
  | cons c chars ih =>
      rw [List.map_cons, pieceOf]
      split
      · rename_i control
        rw [joinPieces?_unit (by omega), ih, Char.ofNat_toNat]
        rfl
      · rw [joinPieces?, ih]
        rfl

/-- A written string is read back behind its opening quote, up to its closing one. -/
theorem string?_flatMap (text : String) (rest : List Char) :
    string? (text.toList.flatMap escapeChar ++ '"' :: rest) = some (some text, rest) := by
  refine Option.bind_eq_some_iff.mpr ⟨_, pieces?_flatMap text.toList rest, ?_⟩
  show some ((joinPieces? (text.toList.map pieceOf)).map String.ofList, rest) = _
  rw [joinPieces?_pieceOf, Option.map_some, String.ofList_toList]

/-! ## One line -/

def IsVisible (c : Char) : Prop :=
  0x20 ≤ c.toNat

instance (c : Char) : Decidable (IsVisible c) :=
  inferInstanceAs (Decidable (0x20 ≤ c.toNat))

theorem isVisible_hexDigit {n : Nat} (small : n < 16) : IsVisible (Hex.digit n) := by
  have every : ∀ k < 16, 0x20 ≤ (Hex.digit k).toNat := by decide
  exact every n small

theorem isVisible_fixed {width n : Nat} {c : Char} (member : c ∈ Hex.fixed width n) :
    IsVisible c := by
  induction width generalizing n with
  | zero => cases member
  | succ width ih =>
      rw [Hex.fixed, List.mem_append, List.mem_singleton] at member
      obtain early | last := member
      · exact ih early
      · rw [last]
        exact isVisible_hexDigit (Nat.mod_lt n (by decide))

theorem isVisible_escapeChar {c written : Char} (member : written ∈ escapeChar c) :
    IsVisible written := by
  have backslash : IsVisible '\\' := by decide
  obtain ⟨letter, shape, _, visible, _⟩ | ⟨shape, _, _⟩ | ⟨shape, _, _, visible, _⟩ :=
    escapeChar_cases c
  · rw [shape, List.mem_cons, List.mem_singleton] at member
    obtain rfl | rfl := member
    · exact backslash
    · exact visible
  · rw [shape, List.mem_cons, List.mem_cons] at member
    obtain rfl | rfl | digit := member
    · exact backslash
    · decide
    · exact isVisible_fixed digit
  · rw [shape, List.mem_singleton] at member
    rw [member]
    exact visible

theorem isVisible_renderString {text : String} {c : Char} (member : c ∈ renderString text) :
    IsVisible c := by
  have quote : IsVisible '"' := by decide
  rw [renderString, List.mem_cons, List.mem_append, List.mem_singleton, List.mem_flatMap]
    at member
  obtain rfl | ⟨_, _, escaped⟩ | rfl := member
  · exact quote
  · exact isVisible_escapeChar escaped
  · exact quote

end WebhookRelay.Json
