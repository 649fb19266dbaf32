/-!
# Byte strings

Bodies, signatures and digests are lists of bytes. A text has exactly one UTF-8
form; a byte string is the form of at most one text. Bytes that are the form of none
may still spell characters here and there.
-/

set_option autoImplicit false

namespace WebhookRelay

abbrev Bytes := List UInt8

namespace Text

def utf8 (text : String) : Bytes :=
  text.toByteArray.data.toList

/-- The text whose UTF-8 form the bytes are, if there is one. -/
def ofUtf8? (bytes : Bytes) : Option String :=
  String.fromUTF8? ⟨bytes.toArray⟩

theorem ofUtf8?_utf8 (text : String) : ofUtf8? (utf8 text) = some text := by
  simp [ofUtf8?, utf8, String.fromUTF8?, text.isValidUTF8, String.fromUTF8]

theorem utf8_of_ofUtf8? {bytes : Bytes} {text : String}
    (read : ofUtf8? bytes = some text) : utf8 text = bytes := by
  unfold ofUtf8? String.fromUTF8? at read
  split at read
  · cases Option.some.inj read
    simp [utf8, String.fromUTF8]
  · simp at read

theorem utf8_ofList (chars : List Char) :
    utf8 (.ofList chars) = chars.flatMap String.utf8EncodeChar := by
  simp [utf8, List.utf8Encode]

def spelledAfter : (skip : Nat) → Bytes → List (Option Char)
  | _, [] => []
  | skip + 1, _ :: rest => spelledAfter skip rest
  | 0, byte :: rest =>
      match (byte :: rest.take 3).toByteArray.utf8DecodeChar? 0 with
      | some c => some c :: spelledAfter (c.utf8Size - 1) rest
      | none => none :: spelledAfter 0 rest

/-- The characters that bytes spell, with `none` for each byte that belongs to none of them. -/
def spelled (bytes : Bytes) : List (Option Char) :=
  spelledAfter 0 bytes

theorem spelledAfter_append (front rest : Bytes) :
    spelledAfter front.length (front ++ rest) = spelled rest := by
  induction front with
  | nil => rfl
  | cons byte front ih => exact ih

theorem spelled_encodeChar (c : Char) (rest : Bytes) :
    spelled (String.utf8EncodeChar c ++ rest) = some c :: spelled rest := by
  have width := String.length_utf8EncodeChar c
  have narrow := c.utf8Size_le_four
  cases form : String.utf8EncodeChar c with
  | nil => exact absurd form String.utf8EncodeChar_ne_nil
  | cons byte more =>
      rw [form, List.length_cons] at width
      have head : (more ++ rest).take 3 = more ++ rest.take (3 - more.length) := by
        rw [List.take_append, List.take_of_length_le (by omega)]
      have decoded : (byte :: (more ++ rest).take 3).toByteArray.utf8DecodeChar? 0 = some c := by
        rw [head, ← List.cons_append, ← form, List.toByteArray_append]
        exact ByteArray.utf8DecodeChar?_utf8EncodeChar_append
      have others : c.utf8Size - 1 = more.length := by omega
      rw [spelled, List.cons_append, spelledAfter, decoded]
      simp only [others, spelledAfter_append]

theorem spelled_utf8 (text : String) : spelled (utf8 text) = text.toList.map some := by
  obtain ⟨chars, rfl⟩ : ∃ chars, text = .ofList chars := ⟨text.toList, by simp⟩
  rw [utf8_ofList, String.toList_ofList]
  induction chars with
  | nil => rfl
  | cons c chars ih => rw [List.flatMap_cons, spelled_encodeChar, ih, List.map_cons]

end Text

end WebhookRelay
