import WebhookRelay.Text.Blank
import WebhookRelay.Text.Split

/-!
# Parts of a text

What splitting and trimming come to, said without following either: the parts between
separators hold none and are the text when they are put together, and a trimmed text stands
between blanks and neither starts nor ends with one.
-/

set_option autoImplicit false

namespace WebhookRelay.Text

/-! ## Splitting -/

structure CutAt (separator : Char) (text : List Char) (parts : List (List Char)) : Prop where
  nonempty : parts ≠ []
  whole : ∀ part ∈ parts, separator ∉ part
  joined : join separator parts = text

theorem splitOn_append {separator : Char} {part : List Char} (whole : separator ∉ part)
    (rest : List Char) :
    splitOn separator (part ++ separator :: rest) = part :: splitOn separator rest := by
  induction part with
  | nil => simp [splitOn, split]
  | cons c part ih =>
      rw [List.mem_cons, not_or] at whole
      have tail := ih whole.2
      unfold splitOn at tail ⊢
      simp [split, tail, Ne.symm whole.1]

theorem splitOn_of_notMem {separator : Char} {text : List Char} (whole : separator ∉ text) :
    splitOn separator text = [text] := by
  induction text with
  | nil => rfl
  | cons c text ih =>
      rw [List.mem_cons, not_or] at whole
      have tail := ih whole.2
      unfold splitOn at tail ⊢
      simp [split, tail, Ne.symm whole.1]

theorem splitOn_join {separator : Char} {parts : List (List Char)} (nonempty : parts ≠ [])
    (whole : ∀ part ∈ parts, separator ∉ part) :
    splitOn separator (join separator parts) = parts := by
  induction parts using join.induct with
  | case1 => exact absurd rfl nonempty
  | case2 part => exact splitOn_of_notMem (whole part List.mem_cons_self)
  | case3 part rest more ih =>
      rw [join, splitOn_append (whole part List.mem_cons_self),
        ih more fun other inside => whole other (List.mem_cons_of_mem _ inside)]
      exact more

theorem splitOn_cons_self (separator : Char) (rest : List Char) :
    splitOn separator (separator :: rest) = [] :: splitOn separator rest :=
  splitOn_append List.not_mem_nil rest

theorem splitOn_cons_of_ne {separator c : Char} (other : c ≠ separator) {rest part : List Char}
    {parts : List (List Char)} (tail : splitOn separator rest = part :: parts) :
    splitOn separator (c :: rest) = (c :: part) :: parts := by
  unfold splitOn at tail ⊢
  simp [split, tail, other]

theorem cutAt_splitOn (separator : Char) (text : List Char) :
    CutAt separator text (splitOn separator text) := by
  induction text with
  | nil => exact ⟨List.cons_ne_nil _ _, by simp [splitOn, split], rfl⟩
  | cons c rest ih =>
      by_cases same : c = separator
      · subst same
        rw [splitOn_cons_self]
        refine ⟨List.cons_ne_nil _ _, ?_, ?_⟩
        · rintro part member
          rcases List.mem_cons.mp member with rfl | inside
          · exact List.not_mem_nil
          · exact ih.whole part inside
        · rw [join, ih.joined]
          · rfl
          · exact ih.nonempty
      · obtain ⟨part, parts, tail⟩ := List.exists_cons_of_ne_nil ih.nonempty
        rw [splitOn_cons_of_ne same tail]
        rw [tail] at ih
        refine ⟨List.cons_ne_nil _ _, ?_, ?_⟩
        · rintro other member
          rcases List.mem_cons.mp member with rfl | inside
          · rw [List.mem_cons, not_or]
            exact ⟨Ne.symm same, ih.whole part List.mem_cons_self⟩
          · exact ih.whole other (List.mem_cons_of_mem _ inside)
        · rw [← ih.joined]
          cases parts <;> rfl

/-- Splitting finds the parts, and there is one way to cut a text into parts. -/
theorem cutAt_iff {separator : Char} {text : List Char} {parts : List (List Char)} :
    CutAt separator text parts ↔ parts = splitOn separator text := by
  constructor
  · rintro ⟨nonempty, whole, rfl⟩
    exact (splitOn_join nonempty whole).symm
  · rintro rfl
    exact cutAt_splitOn separator text

/-! ## Trimming -/

structure Trimmed (text part : List Char) : Prop where
  surrounded : ∃ front back, text = front ++ part ++ back ∧
    (∀ c ∈ front, isBlank c = true) ∧ ∀ c ∈ back, isBlank c = true
  starts : ∀ c ∈ part.head?, isBlank c = false
  ends : ∀ c ∈ part.getLast?, isBlank c = false

theorem dropWhile_eq_self {part : List Char} (starts : ∀ c ∈ part.head?, isBlank c = false) :
    part.dropWhile isBlank = part := by
  cases part with
  | nil => rfl
  | cons c rest => exact List.dropWhile_cons_of_neg (by simp [starts c rfl])

theorem Trimmed.trimChars_eq {text part : List Char} (trimmed : Trimmed text part) :
    trimChars text = part := by
  obtain ⟨⟨front, back, rfl, blankFront, blankBack⟩, starts, ends⟩ := trimmed
  have behind : part.reverse.dropWhile isBlank = part.reverse := by
    refine dropWhile_eq_self fun c last => ends c ?_
    rwa [List.head?_reverse] at last
  have tail : trimEndChars (part ++ back) = part := by
    rw [trimEndChars, List.reverse_append,
      List.dropWhile_append_of_pos fun c member => blankBack c (List.mem_reverse.mp member),
      behind, List.reverse_reverse]
  rw [trimChars, trimStartChars, List.append_assoc, List.dropWhile_append_of_pos blankFront]
  cases part with
  | nil =>
      rw [List.nil_append, ← List.append_nil back, List.dropWhile_append_of_pos blankBack]
      rfl
  | cons c rest =>
      rw [List.cons_append, List.dropWhile_cons_of_neg (by simp [starts c rfl]),
        ← List.cons_append]
      exact tail

theorem isBlank_head?_dropWhile (text : List Char) :
    ∀ c ∈ (text.dropWhile isBlank).head?, isBlank c = false := by
  intro c first
  have visible := List.head?_dropWhile_not isBlank text
  rw [Option.mem_def.mp first] at visible
  exact visible

theorem trimmed_trimChars (text : List Char) : Trimmed text (trimChars text) := by
  have middle : ∃ back, trimStartChars text = trimChars text ++ back ∧
      ∀ c ∈ back, isBlank c = true := by
    refine ⟨((trimStartChars text).reverse.takeWhile isBlank).reverse, ?_, ?_⟩
    · rw [trimChars, trimEndChars, ← List.reverse_append, List.takeWhile_append_dropWhile,
        List.reverse_reverse]
    · intro c member
      exact List.all_eq_true.mp List.all_takeWhile c (List.mem_reverse.mp member)
  obtain ⟨back, shape, blankBack⟩ := middle
  refine ⟨⟨text.takeWhile isBlank, back, ?_, ?_, blankBack⟩, ?_, ?_⟩
  · rw [List.append_assoc, ← shape, trimStartChars, List.takeWhile_append_dropWhile]
  · intro c member
    exact List.all_eq_true.mp List.all_takeWhile c member
  · intro c first
    refine isBlank_head?_dropWhile text c ?_
    have whole : (text.dropWhile isBlank).head? = (trimChars text ++ back).head? :=
      congrArg List.head? shape
    rw [whole, List.head?_append, Option.mem_def.mp first]
    rfl
  · intro c last
    refine isBlank_head?_dropWhile (trimStartChars text).reverse c ?_
    rwa [trimChars, trimEndChars, List.getLast?_reverse] at last

/-- Trimming takes the blanks away, and there is one way to do so. -/
theorem trimmed_iff {text part : List Char} : Trimmed text part ↔ part = trimChars text := by
  constructor
  · intro trimmed
    exact trimmed.trimChars_eq.symm
  · rintro rfl
    exact trimmed_trimChars text

theorem trimmed_self {text : List Char} (visible : ∀ c ∈ text, isBlank c = false) :
    Trimmed text text where
  surrounded := ⟨[], [], by simp, nofun, nofun⟩
  starts c first := visible c (List.mem_of_head? first)
  ends c last := visible c (List.mem_of_getLast? last)

end WebhookRelay.Text
