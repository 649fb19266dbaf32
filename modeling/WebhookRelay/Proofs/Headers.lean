import WebhookRelay.Proofs.TextParts
import WebhookRelay.Proofs.WrittenBytes
import WebhookRelay.Proofs.WrittenIntegers
import WebhookRelay.Signature.Header
import Mathlib.Data.List.Forall2

/-!
# The grammar of signature headers

A header is cut at its commas, and blanks around a part do not count.  Of the parts that start
with `t=` and of those that start with `v1=` only the last one counts, and no other part does.
These two have to name an integer of 64 bits and one byte at least.  What is written as a
header is one of the texts that are read as it.
-/

set_option autoImplicit false

namespace WebhookRelay

namespace SignatureHeader

/-! ## Parts -/

def Parts (text : String) (parts : List (List Char)) : Prop :=
  ∃ cut, Text.CutAt ',' text.toList cut ∧ List.Forall₂ Text.Trimmed cut parts

/-- The last of the parts that start with a head goes on with this. -/
def LastWith (head : List Char) (parts : List (List Char)) (rest : List Char) : Prop :=
  (parts.filter head.isPrefixOf).getLast? = some (head ++ rest)

def partsOf (text : String) : List (List Char) :=
  (Text.splitOn ',' text.toList).map Text.trimChars

theorem forall₂_trimmed_iff {cut parts : List (List Char)} :
    List.Forall₂ Text.Trimmed cut parts ↔ parts = cut.map Text.trimChars := by
  constructor
  · intro trimmed
    induction trimmed with
    | nil => rfl
    | cons first _ ih => rw [List.map_cons, ← ih, ← Text.trimmed_iff.mp first]
  · rintro rfl
    rw [List.forall₂_map_right_iff, List.forall₂_same]
    exact fun part _ => Text.trimmed_trimChars part

theorem parts_iff {text : String} {parts : List (List Char)} :
    Parts text parts ↔ parts = partsOf text := by
  constructor
  · rintro ⟨cut, isCut, trimmed⟩
    rw [forall₂_trimmed_iff.mp trimmed, Text.cutAt_iff.mp isCut]
    rfl
  · rintro rfl
    exact ⟨_, Text.cutAt_splitOn ',' text.toList, forall₂_trimmed_iff.mpr rfl⟩

section Values

variable {name part rest : List Char}

theorem value?_eq_some_iff (plain : '=' ∉ name) :
    value? name part = some rest ↔ Text.trimChars part = name ++ '=' :: rest := by
  have other : ∀ c ∈ name, decide (c ≠ '=') = true := by
    intro c member
    exact decide_eq_true fun same => plain (same ▸ member)
  constructor
  · intro found
    simp only [value?] at found
    split at found
    · rename_i named
      split at found
      · rename_i c value shape
        cases found
        -- What the name stops at is an equals sign.
        have stops := List.head?_dropWhile_not (· ≠ '=') (Text.trimChars part)
        rw [shape, List.head?_cons] at stops
        obtain rfl : c = '=' := by simpa using stops
        rw [← named, ← shape, List.takeWhile_append_dropWhile]
      · cases found
    · cases found
  · intro shape
    simp only [value?]
    rw [shape, List.takeWhile_append_of_pos other, List.dropWhile_append_of_pos other,
      List.takeWhile_cons_of_neg (by decide), List.append_nil, if_pos rfl,
      List.dropWhile_cons_of_neg (by decide)]

theorem value?_eq (plain : '=' ∉ name) (part : List Char) :
    value? name part = if (name ++ ['=']).isPrefixOf (Text.trimChars part) then
      some ((Text.trimChars part).drop (name ++ ['=']).length) else none := by
  split
  · rename_i begins
    obtain ⟨rest, shape⟩ := List.isPrefixOf_iff_prefix.mp begins
    rw [← shape, List.drop_left, value?_eq_some_iff plain, ← shape, List.append_assoc]
    rfl
  · rename_i other
    cases found : value? name part with
    | none => rfl
    | some rest =>
        refine absurd (List.isPrefixOf_iff_prefix.mpr ⟨rest, ?_⟩) other
        rw [(value?_eq_some_iff plain).mp found, List.append_assoc]
        rfl

theorem filterMap_value? (plain : '=' ∉ name) (cut : List (List Char)) :
    cut.filterMap (value? name) = ((cut.map Text.trimChars).filter
      (name ++ ['=']).isPrefixOf).map (List.drop (name ++ ['=']).length) := by
  induction cut with
  | nil => rfl
  | cons part cut ih =>
      rw [List.filterMap_cons, value?_eq plain, List.map_cons, List.filter_cons]
      split
      · rename_i nothing
        split at nothing
        · cases nothing
        · rename_i other
          rw [if_neg other, ih]
      · rename_i value found
        split at found
        · rename_i begins
          cases found
          rw [if_pos begins, ih, List.map_cons]
        · cases found

theorem lastValue?_eq_some_iff (plain : '=' ∉ name) {cut : List (List Char)} :
    lastValue? name cut = some rest ↔
      LastWith (name ++ ['=']) (cut.map Text.trimChars) rest := by
  rw [lastValue?, filterMap_value? plain, List.getLast?_map, Option.map_eq_some_iff, LastWith]
  constructor
  · rintro ⟨part, last, rfl⟩
    obtain ⟨tail, rfl⟩ := List.isPrefixOf_iff_prefix.mp
      (List.mem_filter.mp (List.mem_of_getLast? last)).2
    rw [last, List.drop_left]
  · intro last
    exact ⟨_, last, List.drop_left⟩

end Values

/-! ## Reading -/

def timeHead : List Char := ['t', '=']

def signatureHead : List Char := ['v', '1', '=']

/-- Whether a part can count. -/
def isNamed (part : List Char) : Bool :=
  timeHead.isPrefixOf part || signatureHead.isPrefixOf part

def verdict (numeral code : List Char) : Except MalformedHeader SignatureHeader :=
  match Decimal.int64? numeral with
  | none => .error .timestampNotInteger
  | some timestamp =>
      match Base64Url.decodeUnpadded? (String.ofList code) with
      | none => .error .signatureNotBase64Url
      | some [] => .error .emptySignature
      | some signature => .ok { timestamp, signature }

theorem parse_eq (text : String) : parse text =
    match lastValue? ['t'] (Text.splitOn ',' text.toList),
      lastValue? ['v', '1'] (Text.splitOn ',' text.toList) with
    | some numeral, some code => verdict numeral code
    | _, _ => .error .missingPart := rfl

section Reading

variable {text : String} {parts : List (List Char)} {numeral code : List Char}
  {header : SignatureHeader}

theorem lastValue?_time : lastValue? ['t'] (Text.splitOn ',' text.toList) = some numeral ↔
    LastWith timeHead (partsOf text) numeral :=
  lastValue?_eq_some_iff (by decide)

theorem lastValue?_signature :
    lastValue? ['v', '1'] (Text.splitOn ',' text.toList) = some code ↔
      LastWith signatureHead (partsOf text) code :=
  lastValue?_eq_some_iff (by decide)

theorem parse_of_lastWith (cut : Parts text parts) (time : LastWith timeHead parts numeral)
    (signature : LastWith signatureHead parts code) : parse text = verdict numeral code := by
  obtain rfl := parts_iff.mp cut
  rw [parse_eq, lastValue?_time.mpr time, lastValue?_signature.mpr signature]

theorem parse_eq_ok_iff : parse text = .ok header ↔ ∃ numeral code,
    LastWith timeHead (partsOf text) numeral ∧ LastWith signatureHead (partsOf text) code ∧
      verdict numeral code = .ok header := by
  constructor
  · intro read
    rw [parse_eq] at read
    split at read
    · rename_i numeral code time signature
      exact ⟨numeral, code, lastValue?_time.mp time, lastValue?_signature.mp signature, read⟩
    · cases read
  · rintro ⟨numeral, code, time, signature, read⟩
    exact (parse_of_lastWith (parts_iff.mpr rfl) time signature).trans read

theorem verdict_eq_ok_iff : verdict numeral code = .ok header ↔
    Decimal.int64? numeral = some header.timestamp ∧
      Base64Url.decodeUnpadded? (String.ofList code) = some header.signature ∧
      header.signature ≠ [] := by
  constructor
  · intro read
    unfold verdict at read
    split at read
    · cases read
    · rename_i timestamp time
      split at read
      · cases read
      · cases read
      · rename_i signature nonempty decoded
        cases read
        exact ⟨time, decoded, nonempty⟩
  · obtain ⟨timestamp, signature⟩ := header
    rintro ⟨time, decoded, nonempty⟩
    obtain ⟨byte, bytes, rfl⟩ := List.exists_cons_of_ne_nil nonempty
    rw [verdict, time, decoded]

/-- How a text is made up that is read as a header. -/
structure Composed (text : String) (header : SignatureHeader) (parts : List (List Char))
    (numeral code : List Char) (padding : Nat) : Prop where
  cut : Parts text parts
  time : LastWith timeHead parts numeral
  named : Decimal.Names numeral header.timestamp
  fits : Decimal.int64Min ≤ header.timestamp ∧ header.timestamp ≤ Decimal.int64Max
  signature : LastWith signatureHead parts (code ++ List.replicate padding '=')
  encoded : Base64Url.Writes code header.signature
  nonempty : header.signature ≠ []

theorem parse_eq_ok_iff_composed : parse text = .ok header ↔
    ∃ parts numeral code padding, Composed text header parts numeral code padding := by
  rw [parse_eq_ok_iff]
  constructor
  · rintro ⟨numeral, value, time, signature, read⟩
    obtain ⟨integer, decoded, nonempty⟩ := verdict_eq_ok_iff.mp read
    obtain ⟨named, fits⟩ := Decimal.int64?_eq_some_iff.mp integer
    obtain ⟨code, padding, rfl, encoded⟩ := Base64Url.decodeUnpadded?_eq_some_iff.mp decoded
    exact ⟨_, numeral, code, padding, parts_iff.mpr rfl, time, named, fits, signature, encoded,
      nonempty⟩
  · rintro ⟨parts, numeral, code, padding, composed⟩
    obtain rfl := parts_iff.mp composed.cut
    refine ⟨numeral, _, composed.time, composed.signature, verdict_eq_ok_iff.mpr ⟨?_, ?_, ?_⟩⟩
    · exact Decimal.int64?_eq_some_iff.mpr ⟨composed.named, composed.fits⟩
    · exact Base64Url.decodeUnpadded?_eq_some_iff.mpr ⟨code, padding, rfl, composed.encoded⟩
    · exact composed.nonempty

theorem LastWith.unique {head rest other : List Char} (last : LastWith head parts rest)
    (again : LastWith head parts other) : rest = other :=
  List.append_cancel_left (Option.some.inj (last.symm.trans again))

theorem parse_eq_error (unread : ∀ header, parse text ≠ .ok header) :
    ∃ reason, parse text = .error reason := by
  cases read : parse text with
  | error reason => exact ⟨reason, rfl⟩
  | ok header => exact absurd read (unread header)

theorem parse_eq_error_of_time (cut : Parts text parts) (time : LastWith timeHead parts numeral)
    (malformed : ∀ n, Decimal.Names numeral n →
      ¬(Decimal.int64Min ≤ n ∧ n ≤ Decimal.int64Max)) :
    ∃ reason, parse text = .error reason := by
  refine parse_eq_error fun header read => ?_
  obtain ⟨others, other, _, _, composed⟩ := parse_eq_ok_iff_composed.mp read
  obtain rfl := (parts_iff.mp cut).trans (parts_iff.mp composed.cut).symm
  obtain rfl := time.unique composed.time
  exact malformed header.timestamp composed.named composed.fits

theorem parse_eq_error_of_signature (cut : Parts text parts)
    (signature : LastWith signatureHead parts code)
    (malformed : ∀ letters padding bytes, code = letters ++ List.replicate padding '=' →
      Base64Url.Writes letters bytes → bytes = []) :
    ∃ reason, parse text = .error reason := by
  refine parse_eq_error fun header read => ?_
  obtain ⟨others, _, letters, padding, composed⟩ := parse_eq_ok_iff_composed.mp read
  obtain rfl := (parts_iff.mp cut).trans (parts_iff.mp composed.cut).symm
  obtain rfl := signature.unique composed.signature
  exact composed.nonempty (malformed letters padding _ rfl composed.encoded)

/-! ## Parts that do not count -/

theorem lastWith_filter_isNamed {head rest : List Char}
    (counts : ∀ part, head.isPrefixOf part = true → isNamed part = true) :
    LastWith head (parts.filter isNamed) rest ↔ LastWith head parts rest := by
  have same : (parts.filter isNamed).filter head.isPrefixOf = parts.filter head.isPrefixOf := by
    rw [List.filter_filter]
    refine List.filter_congr fun part _ => ?_
    cases begins : head.isPrefixOf part with
    | false => rfl
    | true => rw [counts part begins]; rfl
  rw [LastWith, LastWith, same]

theorem lastWith_congr {others : List (List Char)} {head rest : List Char}
    (same : parts.filter isNamed = others.filter isNamed)
    (counts : ∀ part, head.isPrefixOf part = true → isNamed part = true) :
    LastWith head parts rest ↔ LastWith head others rest := by
  rw [← lastWith_filter_isNamed counts, same, lastWith_filter_isNamed counts]

theorem parse_congr {other : String} {others : List (List Char)} (cut : Parts text parts)
    (otherCut : Parts other others) (same : parts.filter isNamed = others.filter isNamed) :
    parse text = parse other := by
  obtain rfl := parts_iff.mp cut
  obtain rfl := parts_iff.mp otherCut
  have times : lastValue? ['t'] (Text.splitOn ',' text.toList) =
      lastValue? ['t'] (Text.splitOn ',' other.toList) := by
    refine Option.ext fun numeral => ?_
    rw [lastValue?_time, lastValue?_time]
    exact lastWith_congr same fun part begins => by rw [isNamed, begins, Bool.true_or]
  have signatures : lastValue? ['v', '1'] (Text.splitOn ',' text.toList) =
      lastValue? ['v', '1'] (Text.splitOn ',' other.toList) := by
    refine Option.ext fun code => ?_
    rw [lastValue?_signature, lastValue?_signature]
    exact lastWith_congr same fun part begins => by rw [isNamed, begins, Bool.or_true]
  rw [parse_eq, parse_eq, times, signatures]

end Reading

/-- A text is read as a header exactly if, of its parts between commas, blanks around them
aside, the last one that starts with `t=` goes on with a numeral of 64 bits, a sign before it
or not, and the last one that starts with `v1=` with the written form of one byte or more and
any number of equals signs.  Which other parts there are, and where, does not matter.  If the
last part of one of the two kinds goes on with anything else, the text is refused, whatever
the parts before it. -/
theorem headers_are_read_by_their_last_parts :
    (∀ text header, parse text = .ok header ↔
      ∃ parts numeral code padding, Composed text header parts numeral code padding) ∧
    (∀ text other parts others, Parts text parts → Parts other others →
      parts.filter isNamed = others.filter isNamed → parse text = parse other) ∧
    (∀ text parts numeral, Parts text parts → LastWith timeHead parts numeral →
      (∀ n, Decimal.Names numeral n → ¬(Decimal.int64Min ≤ n ∧ n ≤ Decimal.int64Max)) →
      ∃ reason, parse text = .error reason) ∧
    ∀ text parts value, Parts text parts → LastWith signatureHead parts value →
      (∀ code padding bytes, value = code ++ List.replicate padding '=' →
        Base64Url.Writes code bytes → bytes = []) →
      ∃ reason, parse text = .error reason := by
  refine ⟨?_, ?_, ?_, ?_⟩
  · intro text header
    exact parse_eq_ok_iff_composed
  · intro text other parts others cut otherCut same
    exact parse_congr cut otherCut same
  · intro text parts numeral cut time malformed
    exact parse_eq_error_of_time cut time malformed
  · intro text parts value cut signature malformed
    exact parse_eq_error_of_signature cut signature malformed

end SignatureHeader

namespace Sample

/-- A later part that is malformed is not made up for by one before it. -/
theorem other_parts_do_not_count :
    SignatureHeader.parse "v0=zzz, t=42 ,v1=AQI=" =
        SignatureHeader.parse ",\u00a0t=42,T=1,\u3000v1=AQI=\t,v1,v2=***" ∧
      ∃ reason, SignatureHeader.parse "t=42,v1=AQI,t=4 2" = .error reason := by
  obtain ⟨_, others, time, _⟩ := SignatureHeader.headers_are_read_by_their_last_parts
  have parts (text : String) : SignatureHeader.Parts text (SignatureHeader.partsOf text) :=
    SignatureHeader.parts_iff.mpr rfl
  refine ⟨others _ _ _ _ (parts _) (parts _) (by decide +kernel), ?_⟩
  refine time _ _ "4 2".toList (parts _) ?_ ?_
  · unfold SignatureHeader.LastWith
    decide +kernel
  · intro n names
    have read : Decimal.int? "4 2".toList = none := by decide +kernel
    rw [Decimal.int?_eq_some_iff.mpr names] at read
    cases read

end Sample

namespace SignatureHeader

/-! ## Writing -/

section Writing

variable {timestamp : Int} {signature : Bytes}

def writtenParts (timestamp : Int) (signature : Bytes) : List (List Char) :=
  [timeHead ++ Decimal.signedDigits timestamp, signatureHead ++ Base64Url.encodeChars signature]

theorem ne_of_mem_writtenParts {part : List Char} (member : part ∈ writtenParts timestamp signature)
    {c : Char} (inside : c ∈ part) : c ≠ ',' ∧ Text.isBlank c = false := by
  have every : ((timeHead ++ signatureHead).all fun c =>
      c ≠ ',' ∧ Text.isBlank c = false) = true := by decide +kernel
  have heads (c : Char) (isHead : c ∈ timeHead ++ signatureHead) :
      c ≠ ',' ∧ Text.isBlank c = false :=
    of_decide_eq_true (List.all_eq_true.mp every c isHead)
  simp only [writtenParts, List.mem_cons, List.not_mem_nil, or_false] at member
  rcases member with rfl | rfl
  · rcases List.mem_append.mp inside with head | digits
    · exact heads c (List.mem_append_left _ head)
    · exact Decimal.ne_of_mem_signedDigits digits
  · rcases List.mem_append.mp inside with head | letters
    · exact heads c (List.mem_append_right _ head)
    · have written := Base64Url.writes_encodeChars signature
      exact (Base64Url.ne_of_mem_alphabet (written.letters c letters)).2

theorem parts_format (timestamp : Int) (signature : Bytes) :
    Parts (format timestamp signature) (writtenParts timestamp signature) := by
  refine ⟨writtenParts timestamp signature, ⟨List.cons_ne_nil _ _, ?_, ?_⟩, ?_⟩
  · intro part member comma
    exact (ne_of_mem_writtenParts member comma).1 rfl
  · rw [format, String.toList_ofList]
    rfl
  · exact List.forall₂_same.mpr fun part member =>
      Text.trimmed_self fun c inside => (ne_of_mem_writtenParts member inside).2

theorem lastWith_time :
    LastWith timeHead (writtenParts timestamp signature) (Decimal.signedDigits timestamp) :=
  rfl

theorem lastWith_signature :
    LastWith signatureHead (writtenParts timestamp signature) (Base64Url.encodeChars signature) :=
  rfl

theorem parse_format (fits : Decimal.int64Min ≤ timestamp ∧ timestamp ≤ Decimal.int64Max) :
    parse (format timestamp signature) =
      if signature = [] then .error .emptySignature else .ok ⟨timestamp, signature⟩ := by
  have named := Decimal.int64?_eq_some_iff.mpr ⟨Decimal.names_signedDigits timestamp, fits⟩
  have decoded : Base64Url.decodeUnpadded?
      (String.ofList (Base64Url.encodeChars signature)) = some signature :=
    Base64Url.decodeUnpadded?_eq_some_iff.mpr
      ⟨_, 0, (List.append_nil _).symm, Base64Url.writes_encodeChars signature⟩
  rw [parse_of_lastWith (parts_format timestamp signature) lastWith_time lastWith_signature,
    verdict, named, decoded]
  cases signature with
  | nil => rfl
  | cons byte rest => rfl

theorem parse_format_of_parse {text : String} {header : SignatureHeader}
    (read : parse text = .ok header) :
    parse (format header.timestamp header.signature) = .ok header := by
  obtain ⟨_, _, _, _, composed⟩ := parse_eq_ok_iff_composed.mp read
  rw [parse_format composed.fits, if_neg composed.nonempty]

end Writing

def canonical (text : String) : Except MalformedHeader String :=
  (parse text).map fun header => format header.timestamp header.signature

theorem canonical_eq_ok_iff {text written : String} : canonical text = .ok written ↔
    ∃ header, parse text = .ok header ∧ format header.timestamp header.signature = written := by
  rw [canonical]
  cases parse text with
  | error reason => exact ⟨nofun, nofun⟩
  | ok header =>
      constructor
      · intro same
        cases same
        exact ⟨header, rfl, rfl⟩
      · rintro ⟨_, same, rfl⟩
        cases same
        rfl

/-- What is written of a time and a signature is read as them, and as malformed where the
signature is empty.  A text that is read as a header is read as what is written of it, so
writing makes every text that is read into one form, and leaves that form as it is. -/
theorem written_headers_are_read_back :
    (∀ timestamp signature, Decimal.int64Min ≤ timestamp → timestamp ≤ Decimal.int64Max →
      parse (format timestamp signature) =
        if signature = [] then .error .emptySignature else .ok ⟨timestamp, signature⟩) ∧
    (∀ text header, parse text = .ok header →
      parse (format header.timestamp header.signature) = .ok header) ∧
    ∀ text written, canonical text = .ok written →
      parse written = parse text ∧ canonical written = .ok written := by
  refine ⟨?_, ?_, ?_⟩
  · intro timestamp signature low high
    exact parse_format ⟨low, high⟩
  · intro text header read
    exact parse_format_of_parse read
  · intro text written same
    obtain ⟨header, read, rfl⟩ := canonical_eq_ok_iff.mp same
    have again := parse_format_of_parse read
    exact ⟨again.trans read.symm, canonical_eq_ok_iff.mpr ⟨header, again, rfl⟩⟩

end SignatureHeader

namespace Sample

theorem first_time_is_read_back :
    SignatureHeader.parse (SignatureHeader.format Decimal.int64Min [0xFB, 0xFF]) =
        .ok ⟨Decimal.int64Min, [0xFB, 0xFF]⟩ ∧
      SignatureHeader.parse (SignatureHeader.format Decimal.int64Min []) =
        .error .emptySignature ∧
      SignatureHeader.canonical "v1=-_8=, t=+07" =
        .ok (SignatureHeader.format 7 [0xFB, 0xFF]) ∧
      SignatureHeader.canonical (SignatureHeader.format 7 [0xFB, 0xFF]) =
        .ok (SignatureHeader.format 7 [0xFB, 0xFF]) := by
  obtain ⟨written, _, settled⟩ := SignatureHeader.written_headers_are_read_back
  have same : SignatureHeader.canonical "v1=-_8=, t=+07" =
      .ok (SignatureHeader.format 7 [0xFB, 0xFF]) := by
    decide +kernel
  exact ⟨written _ _ (by decide) (by decide), written _ _ (by decide) (by decide), same,
    (settled _ _ same).2⟩

end Sample

end WebhookRelay
