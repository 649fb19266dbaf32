import WebhookRelay.Json.Record
import WebhookRelay.Proofs.Numerals
import WebhookRelay.Proofs.WrittenStrings

/-!
# Written values

The text of a value without floating-point numbers is read back as that value, in whatever
fuel its length gives.  The text is one line: it holds no control character.
-/

set_option autoImplicit false

namespace WebhookRelay.Json

/-! ## Exact values -/

mutual

/-- The values whose numbers are integers of 64 bits. -/
def isExact : Json → Bool
  | .int n => Decimal.int64Min ≤ n && n ≤ Decimal.uint64Max
  | .float _ => false
  | .arr items => areExact items
  | .obj members => haveExact members
  | _ => true

def areExact : List Json → Bool
  | [] => true
  | item :: rest => isExact item && areExact rest

def haveExact : List (String × Json) → Bool
  | [] => true
  | (_, value) :: rest => isExact value && haveExact rest

end

/-! ## Integers -/

/-- The text does not go on with a part of a number. -/
def EndsLiteral (rest : List Char) : Prop :=
  ∀ c ∈ rest.head?, Decimal.isDigit c = false ∧ c ≠ '.' ∧ c ≠ 'e' ∧ c ≠ 'E'

theorem EndsLiteral.endsNumber {rest : List Char} (ended : EndsLiteral rest) :
    Decimal.EndsNumber rest :=
  fun c head => (ended c head).1

theorem wholePart?_digits {n : Nat} {rest : List Char} (ended : Decimal.EndsNumber rest) :
    wholePart? (Decimal.digits n ++ rest) = some (Decimal.digits n, rest) := by
  have all : ∀ c ∈ Decimal.digits n, Decimal.isDigit c = true :=
    fun c member => Decimal.isDigit_of_mem_digits member
  rw [wholePart?, spanDigits, Decimal.takeWhile_append all ended,
    Decimal.dropWhile_append all ended]
  split
  · rename_i empty
    exact absurd (congrArg Prod.fst empty) (Decimal.digits_ne_nil n)
  · rename_i leading
    obtain ⟨shape, _⟩ := Prod.mk.inj leading
    cases Nat.eq_zero_or_pos n with
    | inl zero =>
        rw [zero, Decimal.digits_of_lt (by decide)] at shape
        cases shape
    | inr positive => exact absurd (by rw [shape]; rfl) (Decimal.head?_digits_ne_zero positive)
  · rfl

theorem fraction?_of_endsLiteral {rest : List Char} (ended : EndsLiteral rest) :
    fraction? rest = some (none, rest) := by
  unfold fraction?
  split
  · exact absurd rfl (ended '.' rfl).2.1
  · rfl

theorem exponentPart?_of_endsLiteral {rest : List Char} (ended : EndsLiteral rest) :
    exponentPart? rest = some (none, rest) := by
  cases rest with
  | nil => rfl
  | cons c rest =>
      obtain ⟨_, _, lower, upper⟩ := ended c rfl
      exact if_neg fun either => either.elim lower upper

theorem minusSign_digits (n : Nat) (rest : List Char) :
    minusSign (Decimal.digits n ++ rest) = (false, Decimal.digits n ++ rest) := by
  obtain ⟨c, tail, shape, digit⟩ := Decimal.digits_eq_cons n
  rw [shape]
  unfold minusSign
  split
  · rename_i sign
    cases sign
    cases digit
  · rfl

theorem numberLiteral?_signedDigits (n : Int) {rest : List Char} (ended : EndsLiteral rest) :
    numberLiteral? (Decimal.signedDigits n ++ rest) =
      some ({ negative := n < 0, whole := Decimal.digits n.natAbs, fraction := none,
              exponent := none }, rest) := by
  have sign : minusSign (Decimal.signedDigits n ++ rest) =
      (decide (n < 0), Decimal.digits n.natAbs ++ rest) := by
    cases n with
    | ofNat n => exact minusSign_digits n rest
    | negSucc n =>
        rw [decide_eq_true (Int.negSucc_lt_zero n)]
        rfl
  unfold numberLiteral?
  rw [sign]
  refine Option.bind_eq_some_iff.mpr ⟨_, wholePart?_digits ended.endsNumber, ?_⟩
  refine Option.bind_eq_some_iff.mpr ⟨_, fraction?_of_endsLiteral ended, ?_⟩
  exact Option.bind_eq_some_iff.mpr ⟨_, exponentPart?_of_endsLiteral ended, rfl⟩

theorem le_foldl_digits (significand : Nat) (digits : List Char) :
    significand ≤
      digits.foldl (fun total c => total * 10 + Decimal.digitValue c) significand := by
  induction digits generalizing significand with
  | nil => exact Nat.le_refl _
  | cons c digits ih =>
      have next := ih (significand * 10 + Decimal.digitValue c)
      rw [List.foldl_cons]
      omega

theorem absorb_of_le {significand : Nat} {digits : List Char}
    (fits : digits.foldl (fun total c => total * 10 + Decimal.digitValue c) significand ≤
      Decimal.uint64Max) :
    absorb significand digits =
      (digits.foldl (fun total c => total * 10 + Decimal.digitValue c) significand, []) := by
  induction digits generalizing significand with
  | nil => rfl
  | cons c digits ih =>
      have next := le_foldl_digits (significand * 10 + Decimal.digitValue c) digits
      rw [List.foldl_cons] at fits ⊢
      rw [absorb, if_pos (Nat.le_trans next fits)]
      exact ih fits

theorem value?_literal {n : Int} (exact : isExact (.int n) = true) :
    NumberLiteral.value?
        { negative := n < 0, whole := Decimal.digits n.natAbs, fraction := none,
          exponent := none } =
      some (.int n) := by
  simp only [isExact, Bool.and_eq_true, decide_eq_true_eq] at exact
  unfold Decimal.int64Min Decimal.uint64Max at exact
  have read : absorb 0 (Decimal.digits n.natAbs) = (n.natAbs, []) := by
    have value : (Decimal.digits n.natAbs).foldl
        (fun total c => total * 10 + Decimal.digitValue c) 0 = n.natAbs :=
      Decimal.ofDigits_digits n.natAbs
    rw [absorb_of_le, value]
    rw [value]
    unfold Decimal.uint64Max
    omega
  simp only [NumberLiteral.value?, read]
  by_cases negative : n < 0
  · have odd : ¬ (n.natAbs = 0 ∨ n.natAbs > 0x8000000000000000) := by omega
    have value : -(n.natAbs : Int) = n := by omega
    rw [decide_eq_true negative]
    simp only [Bool.not_true, Bool.false_eq_true, if_false, if_neg odd, value]
  · have value : (n.natAbs : Int) = n := by omega
    simp [negative, value]

/-! ## The first character -/

/-- The text starts with neither a blank nor a closing bracket. -/
def StartsValue (text : List Char) : Prop :=
  ∃ c tail, text = c :: tail ∧ isLayout c = false ∧ c ≠ ']'

theorem StartsValue.append {text : List Char} (starts : StartsValue text) (rest : List Char) :
    StartsValue (text ++ rest) := by
  obtain ⟨c, tail, rfl, solid, open_⟩ := starts
  exact ⟨c, tail ++ rest, rfl, solid, open_⟩

theorem StartsValue.skipLayout {text : List Char} (starts : StartsValue text) :
    skipLayout text = text := by
  obtain ⟨c, tail, rfl, solid, _⟩ := starts
  simp [Json.skipLayout, solid]

theorem startsValue_cons {c : Char} (tail : List Char) (solid : isLayout c = false)
    (open_ : c ≠ ']') : StartsValue (c :: tail) :=
  ⟨c, tail, rfl, solid, open_⟩

theorem signedDigits_head (n : Int) :
    ∃ c tail, Decimal.signedDigits n = c :: tail ∧ (c = '-' ∨ Decimal.isDigit c = true) := by
  cases n with
  | ofNat n =>
      obtain ⟨c, tail, shape, digit⟩ := Decimal.digits_eq_cons n
      exact ⟨c, tail, shape, Or.inr digit⟩
  | negSucc n => exact ⟨'-', _, rfl, Or.inl rfl⟩

theorem startsValue_signedDigits (n : Int) : StartsValue (Decimal.signedDigits n) := by
  obtain ⟨c, tail, shape, rfl | digit⟩ := signedDigits_head n
  · exact ⟨'-', tail, shape, rfl, by decide⟩
  · refine ⟨c, tail, shape, ?_, ?_⟩
    · rw [Bool.eq_false_iff]
      intro layout
      simp only [isLayout, Bool.or_eq_true, decide_eq_true_eq] at layout
      obtain ((rfl | rfl) | rfl) | rfl := layout <;> cases digit
    · rintro rfl
      cases digit

theorem startsValue_renderChars {value : Json} (exact : isExact value = true) :
    StartsValue (renderChars value) := by
  cases value with
  | null => exact startsValue_cons _ rfl (by decide)
  | bool b => cases b <;> exact startsValue_cons _ rfl (by decide)
  | int n => exact startsValue_signedDigits n
  | float x => cases exact
  | str text => exact startsValue_cons _ rfl (by decide)
  | arr items => cases items <;> exact startsValue_cons _ rfl (by decide)
  | obj members => cases members <;> exact startsValue_cons _ rfl (by decide)

/-! ## One step of the reader -/

section Steps

variable {fuel : Nat} {text rest : List Char}

theorem value?_signedDigits {n : Int} (exact : isExact (.int n) = true)
    (ended : EndsLiteral rest) :
    value? (fuel + 1) (Decimal.signedDigits n ++ rest) = some (.number (some (.int n)), rest) := by
  obtain ⟨c, tail, shape, first⟩ := signedDigits_head n
  have literal := numberLiteral?_signedDigits n ended
  have solid := ((startsValue_signedDigits n).append rest).skipLayout
  rw [shape, List.cons_append] at literal solid ⊢
  unfold value?
  rw [solid]
  split
  case h_7 =>
    rw [literal]
    simp only [Option.map_some, value?_literal exact]
  all_goals
    rename_i other
    obtain ⟨rfl, _⟩ := List.cons.inj other
    exact absurd first (by decide)

theorem value?_renderString (name : String) :
    value? (fuel + 1) (renderString name ++ rest) = some (.string (some name), rest) := by
  have read := string?_flatMap name rest
  rw [renderString, List.cons_append, List.append_assoc, List.singleton_append]
  simp [value?, skipLayout, isLayout, read]

theorem value?_array {items : List Raw} (starts : StartsValue text)
    (read : items? fuel text = some (items, rest)) :
    value? (fuel + 1) ('[' :: text) = some (.array items, rest) := by
  have bracket : skipLayout ('[' :: text) = '[' :: text := rfl
  have solid := starts.skipLayout
  obtain ⟨c, tail, rfl, _, open_⟩ := starts
  unfold value?
  simp only [bracket, solid]
  split
  · rename_i closed
    exact absurd (List.cons.inj closed).1 open_
  · rw [read]
    rfl

theorem items?_last {item : Raw} (read : value? fuel text = some (item, ']' :: rest)) :
    items? (fuel + 1) text = some ([item], rest) := by
  simp [items?, read, skipLayout, isLayout]

theorem items?_next {item : Raw} {items : List Raw} {more : List Char}
    (read : value? fuel text = some (item, ',' :: more))
    (later : items? fuel more = some (items, rest)) :
    items? (fuel + 1) text = some (item :: items, rest) := by
  simp [items?, read, skipLayout, isLayout, later]

theorem value?_object {members : List (Option String × Raw)}
    (read : members? fuel ('"' :: text) = some (members, rest)) :
    value? (fuel + 1) ('\x7b' :: '"' :: text) = some (.object members, rest) := by
  show (members? fuel ('"' :: text)).map _ = _
  rw [read]
  rfl

theorem members?_last {name : String} {value : Raw}
    (read : value? fuel text = some (value, '\x7d' :: rest)) :
    members? (fuel + 1) (renderString name ++ ':' :: text) = some ([(some name, value)], rest) := by
  have key := string?_flatMap name (':' :: text)
  rw [renderString, List.cons_append, List.append_assoc, List.singleton_append]
  simp [members?, key, read, skipLayout, isLayout]

theorem members?_next {name : String} {value : Raw} {members : List (Option String × Raw)}
    {more : List Char} (read : value? fuel text = some (value, ',' :: more))
    (later : members? fuel more = some (members, rest)) :
    members? (fuel + 1) (renderString name ++ ':' :: text) =
      some ((some name, value) :: members, rest) := by
  have key := string?_flatMap name (':' :: text)
  rw [renderString, List.cons_append, List.append_assoc, List.singleton_append]
  simp [members?, key, read, skipLayout, isLayout, later]

end Steps

/-! ## Whole values -/

theorem endsLiteral_cons {c : Char} (rest : List Char)
    (mark : Decimal.isDigit c = false ∧ c ≠ '.' ∧ c ≠ 'e' ∧ c ≠ 'E') : EndsLiteral (c :: rest) := by
  intro first member
  cases member
  exact mark

theorem endsLiteral_renderItems (items : List Json) (rest : List Char) :
    EndsLiteral (renderItems items ++ rest) := by
  cases items <;> exact endsLiteral_cons _ (by decide)

theorem endsLiteral_renderMembers (members : List (String × Json)) (rest : List Char) :
    EndsLiteral (renderMembers members ++ rest) := by
  cases members <;> exact endsLiteral_cons _ (by decide)

theorem renderChars_length_pos {value : Json} (exact : isExact value = true) :
    0 < (renderChars value).length := by
  obtain ⟨c, tail, shape, _⟩ := startsValue_renderChars exact
  rw [shape]
  exact Nat.succ_pos _

theorem renderItems_length_pos (items : List Json) : 0 < (renderItems items).length := by
  cases items <;> exact Nat.succ_pos _

theorem renderMembers_length_pos (members : List (String × Json)) :
    0 < (renderMembers members).length := by
  cases members <;> exact Nat.succ_pos _

-- The length of the text bounds the fuel: each call of a reader consumes a character before
-- it calls another one.
mutual

/-- A written value is read back at the head of any text that does not prolong it. -/
theorem value?_renderChars : ∀ (value : Json) (fuel : Nat) {rest : List Char},
    isExact value = true → (renderChars value).length ≤ fuel → EndsLiteral rest →
    value? fuel (renderChars value ++ rest) = some (Raw.ofValue value, rest)
  | .null, fuel + 1, _, _, _, _ => rfl
  | .bool true, fuel + 1, _, _, _, _ => rfl
  | .bool false, fuel + 1, _, _, _, _ => rfl
  | .int n, fuel + 1, rest, exact, _, ended => value?_signedDigits exact ended
  | .str text, fuel + 1, rest, _, _, _ => value?_renderString text
  | .arr [], fuel + 1, rest, _, _, _ => rfl
  | .arr (item :: items), fuel + 1, rest, exact, enough, _ => by
      obtain ⟨itemExact, itemsExact⟩ := Bool.and_eq_true_iff.mp exact
      have itemLength := renderChars_length_pos itemExact
      have itemsLength := renderItems_length_pos items
      simp only [renderChars, List.length_cons, List.length_append] at enough
      obtain ⟨less, rfl⟩ : ∃ less, fuel = less + 1 := ⟨fuel - 1, by omega⟩
      have first := value?_renderChars item less itemExact (by omega)
        (endsLiteral_renderItems items rest)
      have starts := (startsValue_renderChars itemExact).append (renderItems items ++ rest)
      rw [renderChars, List.cons_append, List.append_assoc]
      exact value?_array starts (items?_renderItems items first itemsExact (by omega))
  | .obj [], fuel + 1, rest, _, _, _ => rfl
  | .obj ((name, value) :: members), fuel + 1, rest, exact, enough, _ => by
      obtain ⟨valueExact, membersExact⟩ := Bool.and_eq_true_iff.mp exact
      have valueLength := renderChars_length_pos valueExact
      have membersLength := renderMembers_length_pos members
      simp only [renderChars, List.length_cons, List.length_append] at enough
      obtain ⟨less, rfl⟩ : ∃ less, fuel = less + 1 := ⟨fuel - 1, by omega⟩
      have first := value?_renderChars value less valueExact (by omega)
        (endsLiteral_renderMembers members rest)
      have read := members?_renderMembers members name first membersExact (by omega)
      rw [renderChars, List.cons_append, List.append_assoc, List.cons_append, List.append_assoc]
      exact value?_object read
  | value, 0, _, exact, enough, _ =>
      absurd (Nat.lt_of_lt_of_le (renderChars_length_pos exact) enough) (Nat.lt_irrefl 0)

theorem items?_renderItems : ∀ (items : List Json) {fuel : Nat} {text rest : List Char}
    {item : Raw}, value? fuel text = some (item, renderItems items ++ rest) →
    areExact items = true → (renderItems items).length ≤ fuel →
    items? (fuel + 1) text = some (item :: Raw.ofItems items, rest)
  | [], _, _, _, _, read, _, _ => items?_last read
  | next :: items, fuel, text, rest, item, read, exact, enough => by
      obtain ⟨nextExact, itemsExact⟩ := Bool.and_eq_true_iff.mp exact
      have nextLength := renderChars_length_pos nextExact
      simp only [renderItems, List.length_cons, List.length_append] at enough
      obtain ⟨less, rfl⟩ : ∃ less, fuel = less + 1 := ⟨fuel - 1, by omega⟩
      have second := value?_renderChars next less nextExact (by omega)
        (endsLiteral_renderItems items rest)
      rw [renderItems, List.cons_append, List.append_assoc] at read
      exact items?_next read (items?_renderItems items second itemsExact (by omega))

theorem members?_renderMembers : ∀ (members : List (String × Json)) {fuel : Nat}
    {text rest : List Char} (name : String) {value : Raw},
    value? fuel text = some (value, renderMembers members ++ rest) →
    haveExact members = true → (renderMembers members).length ≤ fuel →
    members? (fuel + 1) (renderString name ++ ':' :: text) =
      some ((some name, value) :: Raw.ofMembers members, rest)
  | [], _, _, _, _, _, read, _, _ => members?_last read
  | (next, inner) :: members, fuel, text, rest, name, value, read, exact, enough => by
      obtain ⟨innerExact, membersExact⟩ := Bool.and_eq_true_iff.mp exact
      have innerLength := renderChars_length_pos innerExact
      simp only [renderMembers, List.length_cons, List.length_append] at enough
      obtain ⟨less, rfl⟩ : ∃ less, fuel = less + 1 := ⟨fuel - 1, by omega⟩
      have second := value?_renderChars inner less innerExact (by omega)
        (endsLiteral_renderMembers members rest)
      rw [renderMembers, List.cons_append, List.append_assoc, List.cons_append,
        List.append_assoc] at read
      exact members?_next read (members?_renderMembers members next second membersExact (by omega))

end

theorem ofChars?_renderChars {value : Json} (exact : isExact value = true) :
    Raw.ofChars? (renderChars value) = some (Raw.ofValue value) := by
  have ended : EndsLiteral [] := fun _ member => nomatch member
  have read := value?_renderChars value (2 * (renderChars value).length + 2)
    exact (by omega) ended
  rw [List.append_nil] at read
  exact Option.bind_eq_some_iff.mpr ⟨_, read, rfl⟩

/-- A type is read from the text of a value as it is read from the value. -/
theorem readText?_render {α : Type} (read : Decoder α) {value : Json}
    (exact : isExact value = true) : readText? read (render value) = read? read value := by
  rw [readText?, render, String.toList_ofList, ofChars?_renderChars exact]
  rfl

theorem readBytes?_utf8 {α : Type} (read : Decoder α) (text : String) :
    readBytes? read (Text.utf8 text) = readText? read text := by
  rw [readBytes?, Raw.ofBytes?, Text.spelled_utf8, shapeChars_map_some]
  rfl

/-! ## One line -/

theorem isVisible_of_isDigit {c : Char} (digit : Decimal.isDigit c = true) : IsVisible c := by
  simp only [Decimal.isDigit, Bool.and_eq_true, decide_eq_true_eq] at digit
  unfold IsVisible
  omega

theorem isVisible_signedDigits {n : Int} {c : Char} (member : c ∈ Decimal.signedDigits n) :
    IsVisible c := by
  rcases Decimal.mem_signedDigits member with rfl | digit
  · decide
  · exact isVisible_of_isDigit digit

def IsLine (text : List Char) : Prop :=
  ∀ c ∈ text, IsVisible c

theorem isLine_cons {c : Char} {text : List Char} (first : IsVisible c) (rest : IsLine text) :
    IsLine (c :: text) :=
  List.forall_mem_cons.mpr ⟨first, rest⟩

theorem isLine_append {front back : List Char} (first : IsLine front) (second : IsLine back) :
    IsLine (front ++ back) :=
  List.forall_mem_append.mpr ⟨first, second⟩

instance (text : List Char) : Decidable (IsLine text) :=
  List.decidableBAll IsVisible text

mutual

theorem isLine_renderChars : ∀ value : Json, isExact value = true → IsLine (renderChars value)
  | .null, _ => by decide
  | .bool true, _ => by decide
  | .bool false, _ => by decide
  | .int _, _ => fun _ member => isVisible_signedDigits member
  | .str _, _ => fun _ member => isVisible_renderString member
  | .arr [], _ => by decide
  | .arr (item :: items), exact =>
      have ⟨itemExact, itemsExact⟩ := Bool.and_eq_true_iff.mp exact
      isLine_cons (by decide)
        (isLine_append (isLine_renderChars item itemExact) (isLine_renderItems items itemsExact))
  | .obj [], _ => by decide
  | .obj ((_, value) :: members), exact =>
      have ⟨valueExact, membersExact⟩ := Bool.and_eq_true_iff.mp exact
      isLine_cons (by decide) (isLine_append (fun _ member => isVisible_renderString member)
        (isLine_cons (by decide) (isLine_append (isLine_renderChars value valueExact)
          (isLine_renderMembers members membersExact))))

theorem isLine_renderItems : ∀ items : List Json, areExact items = true →
    IsLine (renderItems items)
  | [], _ => by decide
  | item :: items, exact =>
      have ⟨itemExact, itemsExact⟩ := Bool.and_eq_true_iff.mp exact
      isLine_cons (by decide)
        (isLine_append (isLine_renderChars item itemExact) (isLine_renderItems items itemsExact))

theorem isLine_renderMembers : ∀ members : List (String × Json), haveExact members = true →
    IsLine (renderMembers members)
  | [], _ => by decide
  | (_, value) :: members, exact =>
      have ⟨valueExact, membersExact⟩ := Bool.and_eq_true_iff.mp exact
      isLine_cons (by decide) (isLine_append (fun _ member => isVisible_renderString member)
        (isLine_cons (by decide) (isLine_append (isLine_renderChars value valueExact)
          (isLine_renderMembers members membersExact))))

end

end WebhookRelay.Json
