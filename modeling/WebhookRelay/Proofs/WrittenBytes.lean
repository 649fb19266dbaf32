import WebhookRelay.Text.Base64Url
import WebhookRelay.Text.Blank
import Mathlib.Algebra.Group.Nat.Defs
import Mathlib.Data.List.Basic

/-!
# Bytes written in base64url

Each letter stands for six bits, by its place in the alphabet.  The letters of a written byte
string hold the bits of its bytes in order, and in the last letter zeros behind them, fewer
than six.  That rule leaves one written form for each byte string, and reading accepts it and
nothing else.
-/

set_option autoImplicit false

namespace WebhookRelay

/-- The last bits of a number, the most significant one first. -/
def bits : (width : Nat) → (n : Nat) → List Bool
  | 0, _ => []
  | width + 1, n => bits width (n / 2) ++ [decide (n % 2 = 1)]

theorem length_bits (width n : Nat) : (bits width n).length = width := by
  induction width generalizing n with
  | zero => rfl
  | succ width ih => rw [bits, List.length_append, ih, List.length_singleton]

theorem bits_zero (width : Nat) : bits width 0 = List.replicate width false := by
  induction width with
  | zero => rfl
  | succ width ih =>
      rw [bits, Nat.zero_div, ih, List.replicate_succ']
      rfl

theorem bits_add (front width n : Nat) :
    bits (front + width) n = bits front (n / 2 ^ width) ++ bits width (n % 2 ^ width) := by
  induction width generalizing n with
  | zero => simp [bits]
  | succ width ih =>
      have shifted : n % 2 ^ (width + 1) / 2 = n / 2 % 2 ^ width := by
        rw [Nat.pow_succ', Nat.mod_mul]
        omega
      have last : n % 2 ^ (width + 1) % 2 = n % 2 := by
        rw [Nat.pow_succ', Nat.mod_mul]
        omega
      rw [← Nat.add_assoc, bits, bits, ih, shifted, last, Nat.div_div_eq_div_mul, Nat.pow_succ',
        List.append_assoc]

theorem bits_append (front width : Nat) {high low : Nat} (small : low < 2 ^ width) :
    bits front high ++ bits width low = bits (front + width) (high * 2 ^ width + low) := by
  have positive : 0 < 2 ^ width := Nat.two_pow_pos width
  rw [bits_add, Nat.mul_comm, Nat.mul_add_div positive, Nat.div_eq_of_lt small, Nat.add_zero,
    Nat.mul_add_mod, Nat.mod_eq_of_lt small]

theorem bits_injective {width n m : Nat} (small : n < 2 ^ width) (bounded : m < 2 ^ width)
    (same : bits width n = bits width m) : n = m := by
  induction width generalizing n m with
  | zero => omega
  | succ width ih =>
      rw [Nat.pow_succ] at small bounded
      have equal : (bits width (n / 2)).length = (bits width (m / 2)).length := by
        rw [length_bits, length_bits]
      obtain ⟨fronts, ends⟩ := List.append_inj same equal
      have halves : n / 2 = m / 2 := ih (by omega) (by omega) fronts
      have parity : n % 2 = 1 ↔ m % 2 = 1 := decide_eq_decide.mp (List.singleton_inj.mp ends)
      omega

namespace Base64Url

/-! ## Letters -/

def alphabet : List Char :=
  "ABCDEFGHIJKLMNOPQRSTUVWXYZabcdefghijklmnopqrstuvwxyz0123456789-_".toList

theorem letter_mem_alphabet {n : Nat} (small : n < 64) :
    letter n ∈ alphabet ∧ alphabet.idxOf (letter n) = n := by
  have every : ∀ k < 64, letter k ∈ alphabet ∧ alphabet.idxOf (letter k) = k := by
    decide +kernel
  exact every n small

theorem letterValue?_letter {n : Nat} (small : n < 64) : letterValue? (letter n) = some n := by
  have every : ∀ k < 64, letterValue? (letter k) = some k := by decide +kernel
  exact every n small

theorem letterValue?_eq_some {c : Char} {n : Nat} (read : letterValue? c = some n) :
    n < 64 ∧ c = letter n := by
  have code : Char.ofNat c.toNat = c := Char.ofNat_toNat c
  dsimp only [letterValue?] at read
  split at read
  · cases read
    refine ⟨by omega, ?_⟩
    rw [letter, if_pos (by omega), Nat.add_sub_cancel' (by omega), code]
  · split at read
    · cases read
      refine ⟨by omega, ?_⟩
      rw [letter, if_neg (by omega), if_pos (by omega), Nat.add_sub_cancel' (by omega), code]
    · split at read
      · cases read
        refine ⟨by omega, ?_⟩
        rw [letter, if_neg (by omega), if_neg (by omega), if_pos (by omega),
          Nat.add_sub_cancel, code]
      · split at read
        · rename_i dash
          cases read
          exact ⟨by decide, dash⟩
        · split at read
          · rename_i line
            cases read
            exact ⟨by decide, line⟩
          · cases read

/-! ## The written form -/

def sextet (c : Char) : List Bool :=
  bits 6 (alphabet.idxOf c)

def octet (byte : UInt8) : List Bool :=
  bits 8 byte.toNat

/-- The letters hold the bits of the bytes, and behind them zeros that fill the last letter. -/
structure Writes (text : List Char) (bytes : Bytes) : Prop where
  letters : ∀ c ∈ text, c ∈ alphabet
  content : ∃ unused, unused < 6 ∧
    text.flatMap sextet = bytes.flatMap octet ++ List.replicate unused false

theorem sextet_letter {n : Nat} (small : n < 64) : sextet (letter n) = bits 6 n := by
  rw [sextet, (letter_mem_alphabet small).2]

theorem length_flatMap_sextet (text : List Char) :
    (text.flatMap sextet).length = 6 * text.length := by
  induction text with
  | nil => rfl
  | cons c text ih =>
      rw [List.flatMap_cons, List.length_append, ih, sextet, length_bits, List.length_cons]
      omega

theorem octets_two (a b : UInt8) :
    octet a ++ octet b = bits 16 (a.toNat * 256 + b.toNat) :=
  bits_append 8 8 b.toNat_lt

theorem octets_three (a b c : UInt8) :
    octet a ++ (octet b ++ octet c) = bits 24 ((a.toNat * 256 + b.toNat) * 256 + c.toNat) := by
  rw [← List.append_assoc, octets_two]
  exact bits_append 16 8 c.toNat_lt

section Sextets

variable {p q r s : Nat} (hp : p < 64) (hq : q < 64) (hr : r < 64) (hs : s < 64)

include hp hq in
theorem sextets_two : sextet (letter p) ++ sextet (letter q) = bits 12 (p * 64 + q) := by
  rw [sextet_letter hp, sextet_letter hq]
  exact bits_append 6 6 hq

include hp hq hr in
theorem sextets_three : sextet (letter p) ++ (sextet (letter q) ++ sextet (letter r)) =
    bits 18 ((p * 64 + q) * 64 + r) := by
  rw [← List.append_assoc, sextets_two hp hq, sextet_letter hr]
  exact bits_append 12 6 hr

include hp hq hr hs in
theorem sextets_four :
    sextet (letter p) ++ (sextet (letter q) ++ (sextet (letter r) ++ sextet (letter s))) =
      bits 24 (((p * 64 + q) * 64 + r) * 64 + s) := by
  rw [← List.append_assoc (sextet (letter q)), ← List.append_assoc, sextets_three hp hq hr,
    sextet_letter hs]
  exact bits_append 18 6 hs

end Sextets

theorem letters_encodeChars (bytes : Bytes) :
    ∀ c ∈ encodeChars bytes, ∃ n < 64, c = letter n := by
  induction bytes using encodeChars.induct with
  | case1 => simp [encodeChars]
  | case2 a =>
      have boundA := a.toNat_lt
      simp only [encodeChars, List.mem_cons, List.not_mem_nil, or_false]
      rintro c (rfl | rfl)
      · exact ⟨_, by omega, rfl⟩
      · exact ⟨_, by omega, rfl⟩
  | case3 a b =>
      have boundA := a.toNat_lt
      have boundB := b.toNat_lt
      simp only [encodeChars, List.mem_cons, List.not_mem_nil, or_false]
      rintro c (rfl | rfl | rfl)
      · exact ⟨_, by omega, rfl⟩
      · exact ⟨_, by omega, rfl⟩
      · exact ⟨_, by omega, rfl⟩
  | case4 a b c rest ih =>
      have boundA := a.toNat_lt
      have boundB := b.toNat_lt
      have boundC := c.toNat_lt
      simp only [encodeChars, List.mem_cons]
      rintro d (rfl | rfl | rfl | rfl | member)
      · exact ⟨_, by omega, rfl⟩
      · exact ⟨_, by omega, rfl⟩
      · exact ⟨_, by omega, rfl⟩
      · exact ⟨_, by omega, rfl⟩
      · exact ih d member

theorem writes_encodeChars (bytes : Bytes) : Writes (encodeChars bytes) bytes where
  letters c member := by
    obtain ⟨n, small, rfl⟩ := letters_encodeChars bytes c member
    exact (letter_mem_alphabet small).1
  content := by
    induction bytes using encodeChars.induct with
    | case1 => exact ⟨0, by decide, rfl⟩
    | case2 a =>
        have boundA := a.toNat_lt
        refine ⟨4, by decide, ?_⟩
        simp only [encodeChars, List.flatMap_cons, List.flatMap_nil, List.append_nil]
        rw [sextets_two (by omega) (by omega), ← bits_zero, octet, bits_append 8 4 (by decide)]
        congr 1
        omega
    | case3 a b =>
        have boundA := a.toNat_lt
        have boundB := b.toNat_lt
        refine ⟨2, by decide, ?_⟩
        simp only [encodeChars, List.flatMap_cons, List.flatMap_nil, List.append_nil]
        rw [sextets_three (by omega) (by omega) (by omega), ← bits_zero, octets_two,
          bits_append 16 2 (by decide)]
        congr 1
        omega
    | case4 a b c rest ih =>
        have boundA := a.toNat_lt
        have boundB := b.toNat_lt
        have boundC := c.toNat_lt
        obtain ⟨unused, few, same⟩ := ih
        refine ⟨unused, few, ?_⟩
        -- Four letters hold the bits of three bytes, with none left over.
        have group : (((a.toNat / 4 * 64 + (a.toNat % 4 * 16 + b.toNat / 16)) * 64 +
            (b.toNat % 16 * 4 + c.toNat / 64)) * 64 + c.toNat % 64) =
              (a.toNat * 256 + b.toNat) * 256 + c.toNat := by omega
        have joined := sextets_four (p := a.toNat / 4) (q := a.toNat % 4 * 16 + b.toNat / 16)
          (r := b.toNat % 16 * 4 + c.toNat / 64) (s := c.toNat % 64)
          (by omega) (by omega) (by omega) (by omega)
        rw [group, ← octets_three] at joined
        simp only [encodeChars, List.flatMap_cons, same]
        simpa only [List.append_assoc] using
          congrArg (· ++ (rest.flatMap octet ++ List.replicate unused false)) joined

theorem eq_of_flatMap_sextet {text other : List Char} (letters : ∀ c ∈ text, c ∈ alphabet)
    (others : ∀ c ∈ other, c ∈ alphabet) (same : text.flatMap sextet = other.flatMap sextet) :
    text = other := by
  have equal : text.length = other.length := by
    have lengths := congrArg List.length same
    rw [length_flatMap_sextet, length_flatMap_sextet] at lengths
    omega
  induction text generalizing other with
  | nil => exact (List.length_eq_zero_iff.mp equal.symm).symm
  | cons c text ih =>
      cases other with
      | nil => cases equal
      | cons d other =>
          rw [List.flatMap_cons, List.flatMap_cons] at same
          obtain ⟨first, rest⟩ := List.append_inj same (by rw [sextet, sextet, length_bits,
            length_bits])
          have inside := letters c List.mem_cons_self
          have there := others d List.mem_cons_self
          have places : alphabet.idxOf c = alphabet.idxOf d :=
            bits_injective (List.idxOf_lt_length_of_mem inside)
              (List.idxOf_lt_length_of_mem there) first
          have tails : text = other :=
            ih (fun e member => letters e (List.mem_cons_of_mem _ member))
              (fun e member => others e (List.mem_cons_of_mem _ member)) rest
              (Nat.succ.inj equal)
          rw [tails, (List.idxOf_inj inside).mp places]

theorem writes_iff {text : List Char} {bytes : Bytes} :
    Writes text bytes ↔ text = encodeChars bytes := by
  constructor
  · rintro ⟨letters, unused, few, content⟩
    obtain ⟨others, left, fewer, written⟩ := writes_encodeChars bytes
    have lengths := congrArg List.length content
    have written_length := congrArg List.length written
    rw [length_flatMap_sextet, List.length_append, List.length_replicate] at lengths
    rw [length_flatMap_sextet, List.length_append, List.length_replicate] at written_length
    obtain rfl : unused = left := by omega
    exact eq_of_flatMap_sextet letters others (content.trans written.symm)
  · rintro rfl
    exact writes_encodeChars bytes

/-! ## Reading -/

theorem decodeChars?_encodeChars (bytes : Bytes) :
    decodeChars? (encodeChars bytes) = some bytes := by
  induction bytes using encodeChars.induct with
  | case1 => rfl
  | case2 a =>
      have boundA := a.toNat_lt
      have first : a.toNat / 4 * 4 + a.toNat % 4 * 16 / 16 = a.toNat := by omega
      have unused : a.toNat % 4 * 16 % 16 = 0 := by omega
      simp only [encodeChars, decodeChars?, letterValue?_letter (show a.toNat / 4 < 64 by omega),
        letterValue?_letter (show a.toNat % 4 * 16 < 64 by omega), Option.bind_eq_bind,
        Option.bind_some, first, unused, if_true, UInt8.ofNat_toNat]
  | case3 a b =>
      have boundA := a.toNat_lt
      have boundB := b.toNat_lt
      have first : a.toNat / 4 * 4 + (a.toNat % 4 * 16 + b.toNat / 16) / 16 = a.toNat := by omega
      have second : (a.toNat % 4 * 16 + b.toNat / 16) % 16 * 16 + b.toNat % 16 * 4 / 4 =
        b.toNat := by omega
      have unused : b.toNat % 16 * 4 % 4 = 0 := by omega
      simp only [encodeChars, decodeChars?, letterValue?_letter (show a.toNat / 4 < 64 by omega),
        letterValue?_letter (show a.toNat % 4 * 16 + b.toNat / 16 < 64 by omega),
        letterValue?_letter (show b.toNat % 16 * 4 < 64 by omega), Option.bind_eq_bind,
        Option.bind_some, first, second, unused, if_true, UInt8.ofNat_toNat]
  | case4 a b c rest ih =>
      have boundA := a.toNat_lt
      have boundB := b.toNat_lt
      have boundC := c.toNat_lt
      have first : a.toNat / 4 * 4 + (a.toNat % 4 * 16 + b.toNat / 16) / 16 = a.toNat := by omega
      have second : (a.toNat % 4 * 16 + b.toNat / 16) % 16 * 16 +
        (b.toNat % 16 * 4 + c.toNat / 64) / 4 = b.toNat := by omega
      have third : (b.toNat % 16 * 4 + c.toNat / 64) % 4 * 64 + c.toNat % 64 = c.toNat := by
        omega
      simp only [encodeChars, decodeChars?, letterValue?_letter (show a.toNat / 4 < 64 by omega),
        letterValue?_letter (show a.toNat % 4 * 16 + b.toNat / 16 < 64 by omega),
        letterValue?_letter (show b.toNat % 16 * 4 + c.toNat / 64 < 64 by omega),
        letterValue?_letter (show c.toNat % 64 < 64 by omega), ih, Option.bind_eq_bind,
        Option.bind_some, first, second, third, UInt8.ofNat_toNat]
      rfl

theorem toNat_ofNat {n : Nat} (small : n < 256) : (UInt8.ofNat n).toNat = n :=
  UInt8.toNat_ofNat_of_lt' small

theorem eq_encodeChars_of_decodeChars? {text : List Char} {bytes : Bytes}
    (read : decodeChars? text = some bytes) : text = encodeChars bytes := by
  induction text using decodeChars?.induct generalizing bytes with
  | case1 =>
      cases read
      rfl
  | case2 c => cases read
  | case3 c d =>
      simp only [decodeChars?, Option.bind_eq_bind, Option.bind_eq_some_iff] at read
      obtain ⟨p, readP, q, readQ, read⟩ := read
      obtain ⟨boundP, rfl⟩ := letterValue?_eq_some readP
      obtain ⟨boundQ, rfl⟩ := letterValue?_eq_some readQ
      split at read
      · rename_i unused
        cases read
        have first : (p * 4 + q / 16) / 4 = p := by omega
        have second : (p * 4 + q / 16) % 4 * 16 = q := by omega
        rw [encodeChars, toNat_ofNat (by omega), first, second]
      · cases read
  | case4 c d e =>
      simp only [decodeChars?, Option.bind_eq_bind, Option.bind_eq_some_iff] at read
      obtain ⟨p, readP, q, readQ, r, readR, read⟩ := read
      obtain ⟨boundP, rfl⟩ := letterValue?_eq_some readP
      obtain ⟨boundQ, rfl⟩ := letterValue?_eq_some readQ
      obtain ⟨boundR, rfl⟩ := letterValue?_eq_some readR
      split at read
      · rename_i unused
        cases read
        have first : (p * 4 + q / 16) / 4 = p := by omega
        have second : (p * 4 + q / 16) % 4 * 16 + (q % 16 * 16 + r / 4) / 16 = q := by omega
        have third : (q % 16 * 16 + r / 4) % 16 * 4 = r := by omega
        rw [encodeChars, toNat_ofNat (by omega), toNat_ofNat (by omega), first, second, third]
      · cases read
  | case5 c d e f rest ih =>
      simp only [decodeChars?, Option.bind_eq_bind, Option.bind_eq_some_iff] at read
      obtain ⟨p, readP, q, readQ, r, readR, s, readS, tail, readTail, read⟩ := read
      obtain ⟨boundP, rfl⟩ := letterValue?_eq_some readP
      obtain ⟨boundQ, rfl⟩ := letterValue?_eq_some readQ
      obtain ⟨boundR, rfl⟩ := letterValue?_eq_some readR
      obtain ⟨boundS, rfl⟩ := letterValue?_eq_some readS
      cases read
      have first : (p * 4 + q / 16) / 4 = p := by omega
      have second : (p * 4 + q / 16) % 4 * 16 + (q % 16 * 16 + r / 4) / 16 = q := by omega
      have third : (q % 16 * 16 + r / 4) % 16 * 4 + (r % 4 * 64 + s) / 64 = r := by omega
      have fourth : (r % 4 * 64 + s) % 64 = s := by omega
      rw [encodeChars, toNat_ofNat (by omega), toNat_ofNat (by omega), toNat_ofNat (by omega),
        first, second, third, fourth, ih readTail]

theorem decodeChars?_eq_some_iff {text : List Char} {bytes : Bytes} :
    decodeChars? text = some bytes ↔ Writes text bytes := by
  rw [writes_iff]
  constructor
  · exact eq_encodeChars_of_decodeChars?
  · rintro rfl
    exact decodeChars?_encodeChars bytes

theorem ne_of_mem_alphabet {c : Char} (member : c ∈ alphabet) :
    c ≠ '=' ∧ c ≠ ',' ∧ Text.isBlank c = false := by
  have every : (alphabet.all fun c => c ≠ '=' ∧ c ≠ ',' ∧ Text.isBlank c = false) = true := by
    decide +kernel
  exact of_decide_eq_true (List.all_eq_true.mp every c member)

/-- Reading drops the equals signs at the end and no others. -/
theorem decodeUnpadded?_eq_some_iff {text : List Char} {bytes : Bytes} :
    decodeUnpadded? (String.ofList text) = some bytes ↔
      ∃ code padding, text = code ++ List.replicate padding '=' ∧ Writes code bytes := by
  rw [decodeUnpadded?, decodeChars?_eq_some_iff, String.toList_ofList]
  constructor
  · intro writes
    refine ⟨_, (text.reverse.takeWhile (· = '=')).length, ?_, writes⟩
    have padding : text.reverse.takeWhile (· = '=') =
        List.replicate (text.reverse.takeWhile (· = '=')).length '=' := by
      refine List.eq_replicate_of_mem fun c member => ?_
      simpa using List.all_eq_true.mp List.all_takeWhile c member
    rw [← List.reverse_replicate, ← padding, ← List.reverse_append,
      List.takeWhile_append_dropWhile, List.reverse_reverse]
  · rintro ⟨code, padding, rfl, writes⟩
    have stripped : ((code ++ List.replicate padding '=').reverse.dropWhile (· = '=')).reverse =
        code := by
      rw [List.reverse_append, List.reverse_replicate,
        List.dropWhile_append_of_pos fun c member => by simp [List.eq_of_mem_replicate member]]
      cases shape : code.reverse with
      | nil => exact (List.reverse_eq_nil_iff.mp shape).symm
      | cons c rest =>
          have member : c ∈ code := List.mem_reverse.mp (shape ▸ List.mem_cons_self)
          have visible := (ne_of_mem_alphabet (writes.letters c member)).1
          rw [List.dropWhile_cons_of_neg (by simpa using visible), ← shape, List.reverse_reverse]
    rwa [stripped]

end Base64Url

end WebhookRelay
