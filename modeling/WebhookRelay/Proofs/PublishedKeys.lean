import WebhookRelay.Key.VerifyingKey
import WebhookRelay.Proofs.WrittenBytes
import Mathlib.Data.Int.ModEq
import Mathlib.Data.List.Dedup
import Mathlib.Data.List.Induction
import Mathlib.Data.Nat.Digits.Defs
import Mathlib.Tactic.Ring

/-!
# Published keys

A published key is usable if it is for the curve, has a key id, and writes two coordinates of
32 bytes that are those of a point of the curve.  A key set holds, for each key id, the key of
the last usable entry with that id.  Entries that are not usable leave no trace, wherever they
stand and whatever key id they have.
-/

set_option autoImplicit false

namespace WebhookRelay

/-! ## Points and coordinates -/

namespace P256.Point

/-- The coordinates are elements of the field that satisfy the equation of the curve. -/
structure IsOnCurve (point : Point) : Prop where
  x : point.x < prime
  y : point.y < prime
  equation : (point.y : ℤ) ^ 2 ≡ point.x ^ 3 - 3 * point.x + coefficient [ZMOD prime]

theorem onCurve_iff {point : Point} : point.onCurve = true ↔ point.IsOnCurve := by
  have minus : ((prime - 3 : ℕ) : ℤ) = prime - 3 := rfl
  have sides : point.y * point.y % prime =
        (point.x * point.x * point.x + (prime - 3) * point.x + coefficient) % prime ↔
      (point.y : ℤ) ^ 2 ≡ point.x ^ 3 - 3 * point.x + coefficient [ZMOD prime] := by
    rw [← Nat.ModEq, ← Int.natCast_modEq_iff]
    push_cast
    rw [minus, ← sq]
    -- The two cubics differ by a multiple of the prime.
    have same : (point.x : ℤ) * point.x * point.x + (prime - 3) * point.x + coefficient ≡
        point.x ^ 3 - 3 * point.x + coefficient [ZMOD prime] := by
      rw [Int.modEq_iff_dvd]
      exact ⟨-point.x, by ring⟩
    exact ⟨fun equal => equal.trans same, fun equal => equal.trans same.symm⟩
  rw [onCurve, Bool.and_eq_true, Bool.and_eq_true, decide_eq_true_eq, decide_eq_true_eq,
    decide_eq_true_eq, sides]
  exact ⟨fun ⟨⟨x, y⟩, equation⟩ => ⟨x, y, equation⟩, fun ⟨x, y, equation⟩ => ⟨⟨x, y⟩, equation⟩⟩

end P256.Point

theorem Sha256.ofBigEndian_eq (bytes : Bytes) :
    ofBigEndian bytes = Nat.ofDigits 256 (bytes.reverse.map UInt8.toNat) := by
  induction bytes using List.reverseRecOn with
  | nil => rfl
  | append_singleton front last ih =>
      rw [ofBigEndian, List.foldl_append, List.reverse_append, List.reverse_singleton,
        List.singleton_append, List.map_cons, Nat.ofDigits_cons, ← ih, Nat.add_comm, Nat.mul_comm]
      rfl

/-- A text writes a number as a coordinate: it is base64url, with or without padding, of 32
bytes that are the digits of the number, the most significant one first. -/
def WritesCoordinate (text : String) (n : Nat) : Prop :=
  ∃ code padding bytes, text.toList = code ++ List.replicate padding '=' ∧
    Base64Url.Writes code bytes ∧ bytes.length = 32 ∧
    Nat.ofDigits 256 (bytes.reverse.map UInt8.toNat) = n

namespace VerifyingKey

theorem coordinate_eq_ok_iff {axis : Axis} {value : Option String} {n : Nat} :
    coordinate axis value = .ok n ↔ ∃ text, value = some text ∧ WritesCoordinate text n := by
  cases value with
  | none => exact ⟨nofun, nofun⟩
  | some text =>
      have decodes (bytes : Bytes) : Base64Url.decodeUnpadded? text = some bytes ↔
          ∃ code padding, text.toList = code ++ List.replicate padding '=' ∧
            Base64Url.Writes code bytes := by
        rw [← Base64Url.decodeUnpadded?_eq_some_iff, String.ofList_toList]
      rw [coordinate]
      constructor
      · intro read
        split at read
        · cases read
        · rename_i bytes decoded
          split at read
          · rename_i whole
            cases read
            obtain ⟨code, padding, shape, writes⟩ := (decodes bytes).mp decoded
            exact ⟨text, rfl, code, padding, bytes, shape, writes, whole,
              (Sha256.ofBigEndian_eq bytes).symm⟩
          · cases read
      · rintro ⟨_, same, code, padding, bytes, shape, writes, whole, rfl⟩
        cases same
        rw [(decodes bytes).mpr ⟨code, padding, shape, writes⟩]
        dsimp only
        rw [if_pos whole, Sha256.ofBigEndian_eq]

end VerifyingKey

/-! ## Usable entries -/

namespace Jwk

structure Publishes (jwk : Jwk) (key : VerifyingKey) : Prop where
  keyType : jwk.keyType = "EC"
  curve : jwk.curve = some "P-256"
  keyId : jwk.keyId = some key.keyId
  x : ∃ text, jwk.x = some text ∧ WritesCoordinate text key.point.x
  y : ∃ text, jwk.y = some text ∧ WritesCoordinate text key.point.y
  onCurve : key.point.IsOnCurve

def Usable (jwk : Jwk) : Prop :=
  ∃ key, jwk.Publishes key

end Jwk

namespace VerifyingKey

theorem ofJwk_eq (jwk : Jwk) : ofJwk jwk =
    if jwk.keyType ≠ "EC" then .error (.keyType jwk.keyType)
    else if jwk.curve ≠ some "P-256" then .error .curve
    else match jwk.keyId with
      | none => .error .missingKeyId
      | some keyId => (coordinate .x jwk.x).bind fun x => (coordinate .y jwk.y).bind fun y =>
          if (P256.Point.mk x y).onCurve then .ok ⟨keyId, ⟨x, y⟩⟩ else .error .notOnCurve := by
  obtain ⟨keyType, curve, x, y, keyId, use, algorithm⟩ := jwk
  unfold ofJwk
  by_cases ec : keyType = "EC"
  · by_cases p256 : curve = some "P-256"
    · simp only [ec, p256, ne_eq, not_true_eq_false, if_false]
      cases keyId <;> rfl
    · simp only [ec, p256, ne_eq, not_true_eq_false, not_false_eq_true, if_false, if_true]
      cases keyId <;> rfl
  · simp only [ec, ne_eq, not_false_eq_true, if_true]
    cases keyId <;> rfl

section Made

variable {jwk : Jwk} {key : VerifyingKey}

theorem publishes_of_ofJwk (made : ofJwk jwk = .ok key) : jwk.Publishes key := by
  rw [ofJwk_eq] at made
  split at made
  · cases made
  rename_i ec
  split at made
  · cases made
  rename_i curve
  split at made
  · cases made
  rename_i keyId named
  cases xRead : coordinate .x jwk.x with
  | error reason =>
      rw [xRead] at made
      cases made
  | ok x =>
      cases yRead : coordinate .y jwk.y with
      | error reason =>
          rw [xRead, yRead] at made
          cases made
      | ok y =>
          rw [xRead, yRead, Except.bind, Except.bind] at made
          split at made
          · rename_i onCurve
            cases made
            exact ⟨not_not.mp ec, not_not.mp curve, named, coordinate_eq_ok_iff.mp xRead,
              coordinate_eq_ok_iff.mp yRead, P256.Point.onCurve_iff.mp onCurve⟩
          · cases made

theorem ofJwk_of_publishes (publishes : jwk.Publishes key) : ofJwk jwk = .ok key := by
  obtain ⟨ec, curve, named, x, y, onCurve⟩ := publishes
  rw [ofJwk_eq, if_neg (not_not.mpr ec), if_neg (not_not.mpr curve), named]
  dsimp only
  rw [coordinate_eq_ok_iff.mpr x, coordinate_eq_ok_iff.mpr y, Except.bind, Except.bind,
    if_pos (P256.Point.onCurve_iff.mpr onCurve)]

end Made

end VerifyingKey

namespace Jwk

variable {jwk : Jwk} {key other : VerifyingKey}

theorem Publishes.unique (publishes : jwk.Publishes key) (again : jwk.Publishes other) :
    key = other :=
  Except.ok.inj ((VerifyingKey.ofJwk_of_publishes publishes).symm.trans
    (VerifyingKey.ofJwk_of_publishes again))

theorem isOk_iff_usable : (VerifyingKey.ofJwk jwk).isOk = true ↔ jwk.Usable := by
  unfold Usable
  cases made : VerifyingKey.ofJwk jwk with
  | error reason =>
      refine ⟨nofun, ?_⟩
      rintro ⟨key, publishes⟩
      rw [VerifyingKey.ofJwk_of_publishes publishes] at made
      cases made
  | ok key => exact ⟨fun _ => ⟨key, VerifyingKey.publishes_of_ofJwk made⟩, fun _ => rfl⟩

instance : DecidablePred Usable := fun _ => decidable_of_iff _ isOk_iff_usable

end Jwk

/-! ## Taking entries in -/

namespace KeySet

variable {set : KeySet} {jwk : Jwk} {key : VerifyingKey} {keyId : String}

def keyIds (set : KeySet) : List String :=
  set.keys.map VerifyingKey.keyId

theorem find?_eq_none_iff : set.find? keyId = none ↔ keyId ∉ set.keyIds := by
  rw [find?, List.find?_eq_none, keyIds, List.mem_map]
  constructor
  · rintro other ⟨key, member, named⟩
    exact other key member (decide_eq_true named)
  · intro other key member named
    exact other ⟨key, member, of_decide_eq_true named⟩

theorem find?_insert : (set.insert key).find? keyId =
    if key.keyId = keyId then some key else set.find? keyId := by
  rw [find?, insert, List.find?_append, List.find?_singleton]
  by_cases same : key.keyId = keyId
  · have gone : (set.keys.filter fun other => other.keyId ≠ key.keyId).find?
        (fun other => other.keyId = keyId) = none := by
      rw [List.find?_eq_none]
      intro other member
      have apart := of_decide_eq_true (List.mem_filter.mp member).2
      rwa [decide_eq_true_eq, ← same]
    rw [gone, Option.none_or, if_pos (decide_eq_true same), if_pos same]
  · have kept : (set.keys.filter fun other => other.keyId ≠ key.keyId).find?
        (fun other => other.keyId = keyId) = set.find? keyId := by
      rw [List.find?_filter, find?]
      refine congrArg (List.find? · set.keys) (funext fun other => decide_eq_decide.mpr ?_)
      rw [decide_eq_true_eq, decide_eq_true_eq, and_iff_right_iff_imp]
      intro named again
      exact same (again.symm.trans named)
    rw [kept, if_neg (by simpa using same), if_neg same, Option.or_none]

theorem nodup_insert (nodup : set.keyIds.Nodup) : (set.insert key).keyIds.Nodup := by
  rw [keyIds, insert, List.map_append, List.map_singleton, List.nodup_append]
  refine ⟨nodup.sublist (List.filter_sublist.map _), List.nodup_singleton _, ?_⟩
  intro one member other last same
  obtain ⟨kept, inside, rfl⟩ := List.mem_map.mp member
  rw [List.mem_singleton.mp last] at same
  exact of_decide_eq_true (List.mem_filter.mp inside).2 same

theorem add_of_publishes (publishes : jwk.Publishes key) : set.add jwk = set.insert key := by
  rw [add, VerifyingKey.ofJwk_of_publishes publishes]

theorem add_of_unusable (unusable : ¬jwk.Usable) : set.add jwk = set := by
  rw [add]
  split
  · rename_i key made
    exact absurd ⟨key, VerifyingKey.publishes_of_ofJwk made⟩ unusable
  · rfl

theorem find?_add_self (publishes : jwk.Publishes key) (named : jwk.keyId = some keyId) :
    (set.add jwk).find? keyId = some key := by
  have same : key.keyId = keyId := Option.some.inj (publishes.keyId.symm.trans named)
  rw [add_of_publishes publishes, find?_insert, if_pos same]

/-- An entry that is not usable, or has another key id, is not noticed. -/
theorem find?_add_other (other : jwk.keyId = some keyId → ¬jwk.Usable) :
    (set.add jwk).find? keyId = set.find? keyId := by
  by_cases usable : jwk.Usable
  · obtain ⟨key, publishes⟩ := usable
    have apart : key.keyId ≠ keyId := by
      rintro rfl
      exact other publishes.keyId ⟨key, publishes⟩
    rw [add_of_publishes publishes, find?_insert, if_neg apart]
  · rw [add_of_unusable usable]

theorem nodup_add (nodup : set.keyIds.Nodup) : (set.add jwk).keyIds.Nodup := by
  by_cases usable : jwk.Usable
  · obtain ⟨key, publishes⟩ := usable
    rw [add_of_publishes publishes]
    exact nodup_insert nodup
  · rwa [add_of_unusable usable]

theorem ofJwks_concat (entries : List Jwk) (last : Jwk) :
    ofJwks ⟨entries ++ [last]⟩ = (ofJwks ⟨entries⟩).add last :=
  List.foldl_append

end KeySet

/-! ## The last usable entries -/

/-- Of the usable entries with a key id, the last one stands for this key. -/
def LastUsable (entries : List Jwk) (keyId : String) (key : VerifyingKey) : Prop :=
  ∃ earlier jwk later, entries = earlier ++ jwk :: later ∧ jwk.Publishes key ∧
    jwk.keyId = some keyId ∧ ∀ other ∈ later, other.keyId = some keyId → ¬other.Usable

section LastUsable

variable {entries : List Jwk} {last : Jwk} {keyId : String} {key own : VerifyingKey}

theorem lastUsable_concat_self (publishes : last.Publishes own)
    (named : last.keyId = some keyId) :
    LastUsable (entries ++ [last]) keyId key ↔ key = own := by
  constructor
  · rintro ⟨earlier, jwk, later, shape, stands, _, overtaken⟩
    -- The entry is the last of all, or that one stands behind it and is usable as well.
    obtain rfl | ⟨front, final, rfl⟩ := List.eq_nil_or_concat later
    · obtain ⟨_, same⟩ := List.append_inj' shape rfl
      cases same
      exact stands.unique publishes
    · rw [List.concat_eq_append, ← List.cons_append, ← List.append_assoc] at shape
      obtain ⟨_, same⟩ := List.append_inj' shape rfl
      cases same
      have behind : last ∈ front.concat last := by simp
      exact absurd ⟨own, publishes⟩ (overtaken last behind named)
  · rintro rfl
    exact ⟨entries, last, [], rfl, publishes, named, nofun⟩

theorem lastUsable_concat_other (other : last.keyId = some keyId → ¬last.Usable) :
    LastUsable (entries ++ [last]) keyId key ↔ LastUsable entries keyId key := by
  constructor
  · rintro ⟨earlier, jwk, later, shape, stands, named, overtaken⟩
    obtain rfl | ⟨front, final, rfl⟩ := List.eq_nil_or_concat later
    · obtain ⟨_, same⟩ := List.append_inj' shape rfl
      cases same
      exact absurd ⟨key, stands⟩ (other named)
    · rw [List.concat_eq_append, ← List.cons_append, ← List.append_assoc] at shape
      obtain ⟨rfl, _⟩ := List.append_inj' shape rfl
      refine ⟨earlier, jwk, front, rfl, stands, named, fun entry member => overtaken entry ?_⟩
      simp [member]
  · rintro ⟨earlier, jwk, later, rfl, stands, named, overtaken⟩
    refine ⟨earlier, jwk, later ++ [last], by simp, stands, named, ?_⟩
    intro entry member
    rcases List.mem_append.mp member with inside | final
    · exact overtaken entry inside
    · rwa [List.mem_singleton.mp final]

end LastUsable

namespace JwkSet

def usable (published : JwkSet) : List Jwk :=
  published.keys.filter fun jwk => jwk.Usable

end JwkSet

namespace KeySet

variable {entries : List Jwk} {keyId : String} {key : VerifyingKey}

theorem find?_ofJwks_eq_some_iff :
    (ofJwks ⟨entries⟩).find? keyId = some key ↔ LastUsable entries keyId key := by
  induction entries using List.reverseRecOn with
  | nil =>
      refine ⟨nofun, ?_⟩
      rintro ⟨earlier, jwk, later, shape, _⟩
      simp at shape
  | append_singleton entries last ih =>
      rw [ofJwks_concat]
      by_cases counts : last.keyId = some keyId ∧ last.Usable
      · obtain ⟨named, own, publishes⟩ := counts
        rw [find?_add_self publishes named, lastUsable_concat_self publishes named,
          Option.some_inj, eq_comm]
      · rw [find?_add_other (not_and.mp counts), lastUsable_concat_other (not_and.mp counts), ih]

theorem find?_ofJwks_eq_none_iff : (ofJwks ⟨entries⟩).find? keyId = none ↔
    ∀ jwk ∈ entries, jwk.keyId = some keyId → ¬jwk.Usable := by
  induction entries using List.reverseRecOn with
  | nil => exact ⟨fun _ => nofun, fun _ => rfl⟩
  | append_singleton entries last ih =>
      rw [ofJwks_concat, List.forall_mem_append, List.forall_mem_singleton]
      by_cases counts : last.keyId = some keyId ∧ last.Usable
      · obtain ⟨named, own, publishes⟩ := counts
        rw [find?_add_self publishes named]
        exact ⟨nofun, fun none => absurd ⟨own, publishes⟩ (none.2 named)⟩
      · rw [find?_add_other (not_and.mp counts), ih]
        exact ⟨fun none => ⟨none, not_and.mp counts⟩, And.left⟩

theorem nodup_ofJwks : (ofJwks ⟨entries⟩).keyIds.Nodup := by
  induction entries using List.reverseRecOn with
  | nil => exact List.nodup_nil
  | append_singleton entries last ih =>
      rw [ofJwks_concat]
      exact nodup_add ih

theorem mem_keyIds_ofJwks : keyId ∈ (ofJwks ⟨entries⟩).keyIds ↔
    keyId ∈ (JwkSet.usable ⟨entries⟩).filterMap Jwk.keyId := by
  rw [← not_iff_not, ← find?_eq_none_iff, find?_ofJwks_eq_none_iff, JwkSet.usable,
    List.mem_filterMap]
  constructor
  · rintro none ⟨jwk, member, named⟩
    obtain ⟨inside, usable⟩ := List.mem_filter.mp member
    exact none jwk inside named (of_decide_eq_true usable)
  · intro none jwk member named usable
    exact none ⟨jwk, List.mem_filter.mpr ⟨member, decide_eq_true usable⟩, named⟩

theorem size_ofJwks (published : JwkSet) :
    (ofJwks published).size = (published.usable.filterMap Jwk.keyId).dedup.length := by
  have same : (ofJwks published).keyIds.Perm (published.usable.filterMap Jwk.keyId).dedup := by
    rw [List.perm_ext_iff_of_nodup nodup_ofJwks (List.nodup_dedup _)]
    intro keyId
    rw [List.mem_dedup]
    exact mem_keyIds_ofJwks
  rw [size, ← same.length_eq, keyIds, List.length_map]

/-- Only the usable entries count. -/
theorem ofJwks_usable (published : JwkSet) : ofJwks ⟨published.usable⟩ = ofJwks published := by
  rw [ofJwks, ofJwks, JwkSet.usable, List.foldl_filter]
  congr 1
  funext set jwk
  split
  · rfl
  · rename_i refused
    exact (add_of_unusable fun usable => refused (decide_eq_true usable)).symm

end KeySet

/-- A key set holds, under each key id, the key of the last usable entry with that id, and
nothing where no usable entry has it.  It has as many keys as usable entries have different key
ids.  Sets that are published with the same usable entries are the same, so that an entry that
is not usable can be put in or left out anywhere, also behind a usable one with its key id. -/
theorem last_usable_keys_are_kept :
    (∀ published keyId key, (KeySet.ofJwks published).find? keyId = some key ↔
      LastUsable published.keys keyId key) ∧
    (∀ published keyId, (KeySet.ofJwks published).find? keyId = none ↔
      ∀ jwk ∈ published.keys, jwk.keyId = some keyId → ¬jwk.Usable) ∧
    (∀ published, (KeySet.ofJwks published).size =
      (published.usable.filterMap Jwk.keyId).dedup.length) ∧
    ∀ published other, published.usable = other.usable →
      KeySet.ofJwks published = KeySet.ofJwks other := by
  refine ⟨?_, ?_, ?_, ?_⟩
  · intro published keyId key
    exact KeySet.find?_ofJwks_eq_some_iff
  · intro published keyId
    exact KeySet.find?_ofJwks_eq_none_iff
  · intro published
    exact KeySet.size_ofJwks published
  · intro published other same
    rw [← KeySet.ofJwks_usable published, same, KeySet.ofJwks_usable]

namespace Sample

def entryOf (point : P256.Point) : Jwk where
  keyType := "EC"
  curve := some "P-256"
  x := some (Base64Url.encode (Sha256.bigEndian 32 point.x))
  y := some (Base64Url.encode (Sha256.bigEndian 32 point.y))
  keyId := some "k"

/-- The point across from the generator. -/
def opposite : P256.Point :=
  ⟨P256.generator.x, P256.prime - P256.generator.y⟩

/-- The second key takes the place of the first, and an entry of another type behind it takes
the place of none. -/
theorem second_key_is_kept :
    KeySet.ofJwks ⟨[entryOf P256.generator, entryOf opposite,
        { entryOf P256.generator with keyType := "RSA" }]⟩ =
      KeySet.ofJwks ⟨[entryOf P256.generator, entryOf opposite]⟩ ∧
    (KeySet.ofJwks ⟨[entryOf P256.generator, entryOf opposite]⟩).find? "k" =
      some ⟨"k", opposite⟩ ∧
    (KeySet.ofJwks ⟨[entryOf P256.generator, entryOf opposite]⟩).size = 1 := by
  obtain ⟨lasts, _, sizes, unnoticed⟩ := last_usable_keys_are_kept
  have publishes : (entryOf opposite).Publishes ⟨"k", opposite⟩ :=
    VerifyingKey.publishes_of_ofJwk (by decide +kernel)
  refine ⟨unnoticed _ _ (by decide +kernel), (lasts _ _ _).mpr ?_, ?_⟩
  · exact ⟨[entryOf P256.generator], _, [], rfl, publishes, rfl, nofun⟩
  · rw [sizes]
    decide +kernel

end Sample

end WebhookRelay
